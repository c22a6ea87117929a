import Mathlib.Data.List.TakeWhile
import Orchestration.Text

namespace Orchestration.Text

def Blank (text : List Char) : Prop := ∀ c ∈ text, isBlank c = true

structure IsWord (word : List Char) : Prop where
  ne_nil : word ≠ []
  not_blank : ∀ c ∈ word, isBlank c = false

/-- Words with blanks around them, and at least one blank between two of them. -/
inductive Spaced : List (List Char) → List Char → Prop
  | blank {blanks : List Char} (hblanks : Blank blanks) : Spaced [] blanks
  | word {blanks word rest : List Char} {words : List (List Char)} (hblanks : Blank blanks)
      (hword : IsWord word) (hgap : ∀ c ∈ rest.head?, isBlank c = true)
      (hrest : Spaced words rest) : Spaced (word :: words) (blanks ++ word ++ rest)

section Words

variable {text blanks word rest : List Char} {ws : List (List Char)}

theorem words_nil : words [] = [] := rfl

theorem words_cons_of_blank {c : Char} (hc : isBlank c = true) (text : List Char) :
    words (c :: text) = words text := by
  simp [words, List.splitOnP_cons_eq_if_modifyHead, hc]

theorem words_append_of_blank (hblanks : Blank blanks) (text : List Char) :
    words (blanks ++ text) = words text := by
  induction blanks with
  | nil => rfl
  | cons c blanks ih =>
      obtain ⟨hc, hrest⟩ := List.forall_mem_cons.mp hblanks
      rw [List.cons_append, words_cons_of_blank hc, ih hrest]

theorem words_word_append (hword : IsWord word) (hgap : ∀ c ∈ rest.head?, isBlank c = true) :
    words (word ++ rest) = word :: words rest := by
  have hnot := hword.not_blank
  cases rest with
  | nil =>
      rw [List.append_nil, words_nil, words, List.splitOnP_eq_singleton hnot]
      simp [hword.ne_nil]
  | cons c rest =>
      have hc : isBlank c = true := hgap c rfl
      rw [words_cons_of_blank hc, words, words, List.splitOnP_append_cons_of_forall_mem hnot c hc,
        List.filter_cons_of_pos (by simpa using hword.ne_nil)]

theorem Spaced.words_eq (h : Spaced ws text) : words text = ws := by
  induction h with
  | @blank blanks hblanks =>
      rw [← List.append_nil blanks, words_append_of_blank hblanks, words_nil]
  | word hblanks hword hgap _ ih =>
      rw [List.append_assoc, words_append_of_blank hblanks, words_word_append hword hgap, ih]

theorem Spaced.first (hword : IsWord word) (hgap : ∀ c ∈ rest.head?, isBlank c = true)
    (hrest : Spaced ws rest) : Spaced (word :: ws) (word ++ rest) :=
  .word (List.forall_mem_nil _) hword hgap hrest

theorem exists_spaced (text : List Char) : ∃ ws, Spaced ws text := by
  induction text with
  | nil => exact ⟨[], .blank (List.forall_mem_nil _)⟩
  | cons c text ih =>
      obtain ⟨ws, hws⟩ := ih
      cases hc : isBlank c with
      | true =>
          cases hws with
          | blank hblanks => exact ⟨[], .blank (List.forall_mem_cons.mpr ⟨hc, hblanks⟩)⟩
          | @word blanks word rest words hblanks hword hgap hrest =>
              exact ⟨word :: words,
                Spaced.word (List.forall_mem_cons.mpr ⟨hc, hblanks⟩) hword hgap hrest⟩
      | false =>
          have hsingle : IsWord [c] := ⟨List.cons_ne_nil _ _, by simpa using hc⟩
          cases hws with
          | blank hblanks =>
              refine ⟨[[c]], .first hsingle ?_ (.blank hblanks)⟩
              exact fun d hd => hblanks d (List.mem_of_head? hd)
          | @word blanks word rest words hblanks hword hgap hrest =>
              cases blanks with
              | nil =>
                  -- The character goes on with the first word.
                  have hlonger : IsWord (c :: word) :=
                    ⟨List.cons_ne_nil _ _, List.forall_mem_cons.mpr ⟨hc, hword.not_blank⟩⟩
                  exact ⟨(c :: word) :: words, .first hlonger hgap hrest⟩
              | cons d blanks =>
                  refine ⟨[c] :: word :: words, .first hsingle ?_ (.word hblanks hword hgap hrest)⟩
                  rintro _ ⟨⟩
                  exact hblanks d List.mem_cons_self

theorem words_eq_iff : words text = ws ↔ Spaced ws text := by
  constructor
  · rintro rfl
    obtain ⟨ws, hws⟩ := exists_spaced text
    exact hws.words_eq ▸ hws
  · exact Spaced.words_eq

theorem Spaced.append_blank (h : Spaced ws text) (hblanks : Blank blanks) :
    Spaced ws (text ++ blanks) := by
  induction h with
  | blank hfirst => exact .blank (List.forall_mem_append.mpr ⟨hfirst, hblanks⟩)
  | @word before word rest words hbefore hword hgap hrest ih =>
      rw [List.append_assoc]
      refine .word hbefore hword ?_ ih
      intro c hc
      cases rest with
      | nil => exact hblanks c (List.mem_of_head? hc)
      | cons d rest => exact hgap c hc

theorem words_append_blank (hblanks : Blank blanks) (text : List Char) :
    words (text ++ blanks) = words text :=
  ((words_eq_iff.mp rfl).append_blank hblanks).words_eq

theorem Spaced.isWord (h : Spaced ws text) : ∀ word ∈ ws, IsWord word := by
  induction h with
  | blank _ => exact List.forall_mem_nil _
  | word _ hword _ _ ih => exact List.forall_mem_cons.mpr ⟨hword, ih⟩

/-- What stands in the text is blank or stands in a word. -/
theorem Spaced.mem_iff (h : Spaced ws text) {c : Char} (hc : isBlank c = false) :
    c ∈ text ↔ ∃ word ∈ ws, c ∈ word := by
  have hnot : ∀ {blanks : List Char}, Blank blanks → c ∉ blanks := fun hblanks hmem => by
    simpa [hc] using hblanks c hmem
  induction h with
  | blank hblanks => simp [hnot hblanks]
  | word hblanks _ _ _ ih => simp [hnot hblanks, ih]

theorem exists_trim (text : List Char) : ∃ before after, Blank before ∧ Blank after ∧
    text = before ++ trim text ++ after := by
  refine ⟨text.takeWhile isBlank, ((text.dropWhile isBlank).reverse.takeWhile isBlank).reverse,
    ?_, ?_, ?_⟩
  · exact fun c hc => List.mem_takeWhile_imp hc
  · exact fun c hc => List.mem_takeWhile_imp (List.mem_reverse.mp hc)
  · rw [trim, List.append_assoc, ← List.reverse_append, List.takeWhile_append_dropWhile,
      List.reverse_reverse, List.takeWhile_append_dropWhile]

theorem words_trim (text : List Char) : words (trim text) = words text := by
  obtain ⟨before, after, hbefore, hafter, htext⟩ := exists_trim text
  calc words (trim text) = words (trim text ++ after) := (words_append_blank hafter _).symm
    _ = words (before ++ (trim text ++ after)) := (words_append_of_blank hbefore _).symm
    _ = words text := by rw [← List.append_assoc, ← htext]

theorem trim_eq_nil_iff : trim text = [] ↔ words text = [] := by
  constructor
  · intro h
    rw [← words_trim, h, words_nil]
  · intro h
    cases words_eq_iff.mp h with
    | blank hblanks =>
        have hall : text.dropWhile isBlank = [] := List.dropWhile_eq_nil_iff.mpr hblanks
        rw [trim, hall]
        rfl

end Words

/-- A numeral of the number: a plus sign or none, zeros or none, and the digits of the number. -/
def NumeralOf (n : Nat) (text : List Char) : Prop :=
  ∃ zeros, text = List.replicate zeros '0' ++ Nat.toDigits 10 n ∨
    text = '+' :: (List.replicate zeros '0' ++ Nat.toDigits 10 n)

section Numerals

theorem digitChar_of_isDigit {c : Char} (hc : c.isDigit = true) :
    c.toNat - '0'.toNat < 10 ∧ Nat.digitChar (c.toNat - '0'.toNat) = c := by
  obtain ⟨hle, hge⟩ := Char.isDigit_iff_toNat.mp hc
  have hzero : '0'.toNat = 48 := rfl
  have hnine : '9'.toNat = 57 := rfl
  have hlt : c.toNat - '0'.toNat < 10 := by omega
  refine ⟨hlt, Char.toNat_inj.mp ?_⟩
  rw [Nat.toNat_digitChar_of_lt_ten hlt]
  omega

/-- Digits behind the digits of a positive number are the digits of a larger one. -/
theorem toDigits_append {n : Nat} (hn : 0 < n) {digits : List Char}
    (hdigits : ∀ c ∈ digits, c.isDigit = true) :
    Nat.toDigits 10 n ++ digits = Nat.toDigits 10 (Nat.ofDigitChars 10 digits n) := by
  induction digits generalizing n with
  | nil => simp
  | cons c digits ih =>
      obtain ⟨hc, hrest⟩ := List.forall_mem_cons.mp hdigits
      obtain ⟨hlt, hchar⟩ := digitChar_of_isDigit hc
      have hnext : Nat.toDigits 10 n ++ [c] =
          Nat.toDigits 10 (10 * n + (c.toNat - '0'.toNat)) := by
        rw [← Nat.toDigits_append_toDigits (by decide) hn hlt, Nat.toDigits_of_lt_base hlt, hchar]
      rw [Nat.ofDigitChars_cons, ← ih (by omega) hrest, ← hnext, List.append_assoc]
      rfl

theorem exists_zeros {digits : List Char} (hne : digits ≠ [])
    (hdigits : ∀ c ∈ digits, c.isDigit = true) :
    ∃ zeros, digits =
      List.replicate zeros '0' ++ Nat.toDigits 10 (Nat.ofDigitChars 10 digits 0) := by
  induction digits with
  | nil => exact absurd rfl hne
  | cons c digits ih =>
      obtain ⟨hc, hrest⟩ := List.forall_mem_cons.mp hdigits
      obtain ⟨hlt, hchar⟩ := digitChar_of_isDigit hc
      rw [Nat.ofDigitChars_cons, Nat.mul_zero, Nat.zero_add]
      rcases Nat.eq_zero_or_pos (c.toNat - '0'.toNat) with hzero | hpos
      · obtain rfl : c = '0' := by rw [← hchar, hzero]; rfl
        cases digits with
        | nil => exact ⟨0, rfl⟩
        | cons d digits =>
            obtain ⟨zeros, heq⟩ := ih (List.cons_ne_nil _ _) hrest
            refine ⟨zeros + 1, ?_⟩
            rw [hzero, List.replicate_succ, List.cons_append, ← heq]
      · refine ⟨0, ?_⟩
        rw [← toDigits_append hpos hrest, Nat.toDigits_of_lt_base hlt, hchar]
        rfl

theorem ofDigitChars_zeros (zeros n : Nat) :
    Nat.ofDigitChars 10 (List.replicate zeros '0' ++ Nat.toDigits 10 n) 0 = n := by
  induction zeros with
  | zero => exact Nat.ofDigitChars_ten_toDigits
  | succ zeros ih =>
      rw [List.replicate_succ, List.cons_append, Nat.ofDigitChars_cons]
      exact ih

theorem isDigit_of_mem_zeros {zeros n : Nat} {c : Char}
    (hc : c ∈ List.replicate zeros '0' ++ Nat.toDigits 10 n) : c.isDigit = true := by
  rcases List.mem_append.mp hc with hc | hc
  · rw [List.eq_of_mem_replicate hc]
    rfl
  · exact Nat.isDigit_of_mem_toDigits (by decide) (by decide) hc

theorem NumeralOf.not_mem {n : Nat} {text : List Char} (h : NumeralOf n text) {c : Char}
    (hplus : c ≠ '+') (hdigit : c.isDigit = false) : c ∉ text := by
  have hzeros : ∀ {zeros : Nat}, c ∉ List.replicate zeros '0' ++ Nat.toDigits 10 n := by
    intro zeros hc
    rw [isDigit_of_mem_zeros hc] at hdigit
    cases hdigit
  obtain ⟨zeros, rfl | rfl⟩ := h
  · exact hzeros
  · exact List.not_mem_cons_of_ne_of_not_mem hplus hzeros

theorem isDigit_eq_false_of_isBlank {c : Char} (hc : isBlank c = true) : c.isDigit = false := by
  rw [Bool.eq_false_iff]
  intro hdigit
  obtain ⟨hle, hge⟩ := Char.isDigit_iff_toNat.mp hdigit
  have hzero : '0'.toNat = 48 := rfl
  have hnine : '9'.toNat = 57 := rfl
  simp only [isBlank, Bool.or_eq_true, Bool.and_eq_true, decide_eq_true_eq, beq_iff_eq] at hc
  omega

theorem NumeralOf.isWord {n : Nat} {text : List Char} (h : NumeralOf n text) : IsWord text := by
  constructor
  · obtain ⟨zeros, rfl | rfl⟩ := h
    · exact List.append_ne_nil_of_right_ne_nil _ Nat.toDigits_ne_nil
    · exact List.cons_ne_nil _ _
  · intro c hc
    rw [Bool.eq_false_iff]
    intro hblank
    have hplus : c ≠ '+' := by
      rintro rfl
      cases hblank
    exact h.not_mem hplus (isDigit_eq_false_of_isBlank hblank) hc

theorem readNumeral_eq_some_iff {limit n : Nat} {text : List Char} :
    readNumeral limit text = some n ↔ n ≤ limit ∧ NumeralOf n text := by
  have hdigits : ∀ digits : List Char,
      (if !digits.isEmpty && digits.all Char.isDigit then
        if Nat.ofDigitChars 10 digits 0 ≤ limit then some (Nat.ofDigitChars 10 digits 0) else none
      else none) = some n ↔
        n ≤ limit ∧ ∃ zeros, digits = List.replicate zeros '0' ++ Nat.toDigits 10 n := by
    intro digits
    constructor
    · intro h
      split at h
      next hall =>
        simp only [Bool.and_eq_true, Bool.not_eq_true', List.isEmpty_eq_false_iff,
          List.all_eq_true] at hall
        split at h
        next hle =>
          obtain rfl := Option.some.inj h
          exact ⟨hle, exists_zeros hall.1 hall.2⟩
        next => cases h
      next => cases h
    · rintro ⟨hle, zeros, rfl⟩
      have hall : ∀ c ∈ List.replicate zeros '0' ++ Nat.toDigits 10 n, c.isDigit = true :=
        fun c hc => isDigit_of_mem_zeros hc
      have hne : List.replicate zeros '0' ++ Nat.toDigits 10 n ≠ [] :=
        List.append_ne_nil_of_right_ne_nil _ Nat.toDigits_ne_nil
      rw [if_pos, ofDigitChars_zeros, if_pos hle]
      rw [Bool.and_eq_true, List.all_eq_true, Bool.not_eq_true', List.isEmpty_eq_false_iff]
      exact ⟨hne, hall⟩
  have hplus : ∀ {zeros : Nat} {rest : List Char},
      '+' :: rest ≠ List.replicate zeros '0' ++ Nat.toDigits 10 n := by
    intro zeros rest heq
    exact absurd (isDigit_of_mem_zeros (heq ▸ List.mem_cons_self)) (by decide)
  unfold readNumeral NumeralOf
  split
  next rest =>
    refine (hdigits rest).trans (and_congr_right fun _ => exists_congr fun zeros => ?_)
    simp [hplus]
  next hsigned =>
    refine (hdigits text).trans (and_congr_right fun _ => exists_congr fun zeros => ?_)
    have hnot : text ≠ '+' :: (List.replicate zeros '0' ++ Nat.toDigits 10 n) :=
      fun heq => hsigned _ heq
    simp [hnot]

end Numerals

end Orchestration.Text
