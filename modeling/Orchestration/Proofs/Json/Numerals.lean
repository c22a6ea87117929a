import Mathlib.Algebra.Group.Int.Defs
import Mathlib.Data.List.TakeDrop
import Orchestration.Json.Decoder
import Orchestration.Json.Printer

/-!
Numbers as they are written. A numeral reads the same whatever follows it, as long as that cannot be
taken for more of the numeral; integers in range read back, and so do the doubles of which the text
alone does.
-/

namespace Orchestration.Json

namespace Raw

/-- The text cannot go on a numeral before it. -/
def Terminated (text : List Char) : Prop :=
  ∀ c, text.head? = some c → c.isDigit = false ∧ c ≠ '.' ∧ c ≠ 'e' ∧ c ≠ 'E'

theorem terminated_nil : Terminated [] := by
  rintro c ⟨⟩

section Parts

variable {text found rest tail : List Char}

theorem digits_eq_iff :
    digits text = (found, rest) ↔
      text = found ++ rest ∧ (∀ c ∈ found, c.isDigit = true) ∧
        ∀ c, rest.head? = some c → c.isDigit = false := by
  rw [digits, List.span_eq_takeWhile_dropWhile, Prod.mk.injEq]
  constructor
  · rintro ⟨rfl, rfl⟩
    refine ⟨List.takeWhile_append_dropWhile.symm, List.all_eq_true.mp List.all_takeWhile, ?_⟩
    intro c hc
    have hnot := List.head?_dropWhile_not Char.isDigit text
    rw [hc] at hnot
    simpa using hnot
  · rintro ⟨rfl, hfound, hrest⟩
    have htake : rest.takeWhile Char.isDigit = [] := by
      cases rest with
      | nil => rfl
      | cons c rest => simp [hrest c rfl]
    have hdrop : rest.dropWhile Char.isDigit = rest := by
      cases rest with
      | nil => rfl
      | cons c rest => simp [hrest c rfl]
    rw [List.takeWhile_append_of_pos hfound, List.dropWhile_append_of_pos hfound, htake, hdrop]
    simp

theorem head?_append_of_terminated {p : Char → Prop}
    (hrest : ∀ c, rest.head? = some c → p c) (htail : ∀ c, tail.head? = some c → p c) :
    ∀ c, (rest ++ tail).head? = some c → p c := by
  cases rest with
  | nil => exact htail
  | cons first rest => exact hrest

theorem digits_append (h : digits text = (found, rest)) (htail : Terminated tail) :
    digits (text ++ tail) = (found, rest ++ tail) := by
  obtain ⟨rfl, hfound, hrest⟩ := digits_eq_iff.mp h
  refine digits_eq_iff.mpr ⟨List.append_assoc _ _ _, hfound, ?_⟩
  exact head?_append_of_terminated hrest fun c hc => (htail c hc).1

theorem wholePart_eq_some_iff :
    wholePart text = some (found, rest) ↔
      digits text = (found, rest) ∧ found ≠ [] ∧ ∀ c others, found ≠ '0' :: c :: others := by
  unfold wholePart
  split
  next h =>
    rw [h]
    simp only [reduceCtorEq, false_iff]
    rintro ⟨heq, hne, -⟩
    exact hne (Prod.mk.inj heq).1.symm
  next c others _ h =>
    rw [h]
    simp only [reduceCtorEq, false_iff]
    rintro ⟨heq, -, hzero⟩
    exact hzero c others (Prod.mk.inj heq).1.symm
  next hnil hzero =>
    simp only [Option.some.injEq]
    constructor
    · intro h
      refine ⟨h, ?_, ?_⟩
      · rintro rfl
        exact hnil rest h
      · rintro c others rfl
        exact hzero c others rest h
    · exact fun h => h.1

theorem fractionPart_eq_some_iff {fraction : Option (List Char)} :
    fractionPart text = some (fraction, rest) ↔
      (fraction = none ∧ rest = text ∧ text.head? ≠ some '.') ∨
        ∃ others digitsFound, text = '.' :: others ∧ digits others = (digitsFound, rest) ∧
          digitsFound ≠ [] ∧ fraction = some digitsFound := by
  unfold fractionPart
  split
  next others =>
    simp only [List.head?_cons, ne_eq, not_true_eq_false, and_false, List.cons.injEq, true_and,
      false_or]
    split
    next h =>
      simp only [reduceCtorEq, false_iff]
      rintro ⟨_, digitsFound, rfl, hdigits, hne, -⟩
      rw [h] at hdigits
      exact hne (Prod.mk.inj hdigits).1.symm
    next digitsFound others' hne h =>
      simp only [Option.some.injEq, Prod.mk.injEq]
      constructor
      · rintro ⟨rfl, rfl⟩
        exact ⟨_, digitsFound, rfl, h, fun hnil => hne hnil, rfl⟩
      · rintro ⟨_, other, rfl, hdigits, -, rfl⟩
        rw [h] at hdigits
        cases hdigits
        exact ⟨rfl, rfl⟩
  next hpoint =>
    simp only [Option.some.injEq, Prod.mk.injEq]
    constructor
    · rintro ⟨rfl, rfl⟩
      refine .inl ⟨rfl, rfl, ?_⟩
      intro hhead
      cases text with
      | nil => cases hhead
      | cons c text =>
          cases hhead
          exact hpoint text rfl
    · rintro (⟨rfl, rfl, -⟩ | ⟨others, _, rfl, -⟩)
      · exact ⟨rfl, rfl⟩
      · exact absurd rfl (hpoint others)

theorem exponentPart_eq_some_iff {exponent : Option (Bool × List Char)} :
    exponentPart text = some (exponent, rest) ↔
      (exponent = none ∧ rest = text ∧ ∀ c, text.head? = some c → c ≠ 'e' ∧ c ≠ 'E') ∨
        ∃ c others digitsFound, text = c :: others ∧ (c = 'e' ∨ c = 'E') ∧
          digits (exponentSign others).2 = (digitsFound, rest) ∧ digitsFound ≠ [] ∧
            exponent = some ((exponentSign others).1, digitsFound) := by
  cases text with
  | nil =>
      simp [exponentPart, eq_comm]
  | cons c others =>
      by_cases hletter : c = 'e' ∨ c = 'E'
      · have hhead : ¬ (c ≠ 'e' ∧ c ≠ 'E') := by
          rintro ⟨he, hE⟩
          exact hletter.elim he hE
        simp only [exponentPart, hletter, ↓reduceIte, List.head?_cons, Option.some.injEq,
          forall_eq', hhead, and_false, List.cons.injEq, false_or]
        split
        next h =>
          simp only [reduceCtorEq, false_iff]
          rintro ⟨_, _, digitsFound, ⟨rfl, rfl⟩, -, hdigits, hne, -⟩
          rw [h] at hdigits
          exact hne (Prod.mk.inj hdigits).1.symm
        next digitsFound others' hne h =>
          simp only [Option.some.injEq, Prod.mk.injEq]
          constructor
          · rintro ⟨rfl, rfl⟩
            exact ⟨c, others, digitsFound, ⟨rfl, rfl⟩, hletter, h, fun hnil => hne hnil, rfl⟩
          · rintro ⟨_, _, other, ⟨rfl, rfl⟩, -, hdigits, -, rfl⟩
            rw [h] at hdigits
            cases hdigits
            exact ⟨rfl, rfl⟩
      · rw [exponentPart, if_neg hletter]
        simp only [Option.some.injEq, Prod.mk.injEq, List.head?_cons, forall_eq', List.cons.injEq]
        constructor
        · rintro ⟨rfl, rfl⟩
          exact .inl ⟨rfl, rfl, not_or.mp hletter⟩
        · rintro (⟨rfl, rfl, -⟩ | ⟨_, _, _, ⟨rfl, rfl⟩, hc, -⟩)
          · exact ⟨rfl, rfl⟩
          · exact absurd hc hletter

end Parts

section Numeral

variable {text rest tail : List Char} {n : Numeral}

/-- The sign of a numeral, and the text after it. -/
def splitSign (text : List Char) : Bool × List Char :=
  match text with
  | '-' :: rest => (true, rest)
  | _ => (false, text)

theorem splitSign_append (hne : text ≠ []) :
    splitSign (text ++ tail) = ((splitSign text).1, (splitSign text).2 ++ tail) := by
  cases text with
  | nil => exact absurd rfl hne
  | cons c text =>
      by_cases hc : c = '-'
      · subst hc
        rfl
      · simp [splitSign, hc]

theorem exponentSign_append (hne : text ≠ []) :
    exponentSign (text ++ tail) = ((exponentSign text).1, (exponentSign text).2 ++ tail) := by
  cases text with
  | nil => exact absurd rfl hne
  | cons c text =>
      by_cases hplus : c = '+'
      · subst hplus
        rfl
      · by_cases hminus : c = '-'
        · subst hminus
          rfl
        · simp [exponentSign, hplus, hminus]

theorem numeral_eq_some_iff :
    numeral text = some (n, rest) ↔
      n.negative = (splitSign text).1 ∧
        ∃ afterWhole afterFraction,
          wholePart (splitSign text).2 = some (n.whole, afterWhole) ∧
            fractionPart afterWhole = some (n.fraction, afterFraction) ∧
              exponentPart afterFraction = some (n.exponent, rest) := by
  have hunfold : numeral text = (wholePart (splitSign text).2).bind fun whole =>
      (fractionPart whole.2).bind fun fraction =>
        (exponentPart fraction.2).bind fun exponent =>
          some (⟨(splitSign text).1, whole.1, fraction.1, exponent.1⟩, exponent.2) := by
    unfold numeral splitSign
    rfl
  obtain ⟨negative, whole, fraction, exponent⟩ := n
  rw [hunfold]
  simp only [Option.bind_eq_some_iff, Option.some.injEq, Prod.mk.injEq, Numeral.mk.injEq,
    Prod.exists]
  constructor
  · rintro ⟨_, u, hwhole, _, v, hfraction, _, w, hexponent, ⟨hsign, rfl, rfl, rfl⟩, rfl⟩
    exact ⟨hsign.symm, u, v, hwhole, hfraction, hexponent⟩
  · rintro ⟨hsign, u, v, hwhole, hfraction, hexponent⟩
    exact ⟨_, u, hwhole, _, v, hfraction, _, rest, hexponent, ⟨hsign.symm, rfl, rfl, rfl⟩, rfl⟩

theorem wholePart_append {found : List Char} (h : wholePart text = some (found, rest))
    (htail : Terminated tail) : wholePart (text ++ tail) = some (found, rest ++ tail) := by
  obtain ⟨hdigits, hne, hzero⟩ := wholePart_eq_some_iff.mp h
  exact wholePart_eq_some_iff.mpr ⟨digits_append hdigits htail, hne, hzero⟩

theorem fractionPart_append {fraction : Option (List Char)}
    (h : fractionPart text = some (fraction, rest)) (htail : Terminated tail) :
    fractionPart (text ++ tail) = some (fraction, rest ++ tail) := by
  rw [fractionPart_eq_some_iff] at h ⊢
  rcases h with ⟨rfl, rfl, hhead⟩ | ⟨others, digitsFound, rfl, hdigits, hne, rfl⟩
  · refine .inl ⟨rfl, rfl, ?_⟩
    intro hpoint
    have hnone : ∀ c, rest.head? = some c → c ≠ '.' := by
      rintro c hc rfl
      exact hhead hc
    exact head?_append_of_terminated hnone (fun c hc => (htail c hc).2.1) '.' hpoint rfl
  · exact .inr ⟨_, digitsFound, rfl, digits_append hdigits htail, hne, rfl⟩

theorem exponentPart_append {exponent : Option (Bool × List Char)}
    (h : exponentPart text = some (exponent, rest)) (htail : Terminated tail) :
    exponentPart (text ++ tail) = some (exponent, rest ++ tail) := by
  rw [exponentPart_eq_some_iff] at h ⊢
  rcases h with ⟨rfl, rfl, hhead⟩ | ⟨c, others, digitsFound, rfl, hletter, hdigits, hne, rfl⟩
  · exact .inl ⟨rfl, rfl, head?_append_of_terminated hhead fun c hc => (htail c hc).2.2⟩
  · have hothers : others ≠ [] := by
      rintro rfl
      obtain ⟨hnil, -⟩ := digits_eq_iff.mp hdigits
      exact hne (List.append_eq_nil_iff.mp hnil.symm).1
    refine .inr ⟨c, others ++ tail, digitsFound, rfl, hletter, ?_, hne, ?_⟩
    · rw [exponentSign_append hothers]
      exact digits_append hdigits htail
    · rw [exponentSign_append hothers]

/-- What stands after a numeral does not change it, if it cannot go on it. -/
theorem numeral_append (h : numeral text = some (n, rest)) (htail : Terminated tail) :
    numeral (text ++ tail) = some (n, rest ++ tail) := by
  obtain ⟨hsign, u, v, hwhole, hfraction, hexponent⟩ := numeral_eq_some_iff.mp h
  have hne : text ≠ [] := by
    rintro rfl
    cases hwhole
  rw [numeral_eq_some_iff, splitSign_append hne]
  exact ⟨hsign, u ++ tail, v ++ tail, wholePart_append hwhole htail,
    fractionPart_append hfraction htail, exponentPart_append hexponent htail⟩

theorem splitSign_sound (text : List Char) :
    ∃ sign, text = sign ++ (splitSign text).2 ∧ ∀ c ∈ sign, c = '-' := by
  unfold splitSign
  split
  next others => exact ⟨['-'], rfl, by simp⟩
  next => exact ⟨[], rfl, by simp⟩

theorem exponentSign_sound (text : List Char) : ∃ sign, text = sign ++ (exponentSign text).2 := by
  unfold exponentSign
  split
  next => exact ⟨['+'], rfl⟩
  next => exact ⟨['-'], rfl⟩
  next => exact ⟨[], rfl⟩

theorem fractionPart_sound {fraction : Option (List Char)}
    (h : fractionPart text = some (fraction, rest)) :
    ∃ used, text = used ++ rest ∧ (fraction = none → used = []) := by
  rcases fractionPart_eq_some_iff.mp h with ⟨-, rfl, -⟩ | ⟨others, found, rfl, hdigits, -, rfl⟩
  · exact ⟨[], rfl, fun _ => rfl⟩
  · obtain ⟨rfl, -⟩ := digits_eq_iff.mp hdigits
    exact ⟨'.' :: found, rfl, by simp⟩

theorem exponentPart_sound {exponent : Option (Bool × List Char)}
    (h : exponentPart text = some (exponent, rest)) :
    ∃ used, text = used ++ rest ∧ (exponent = none → used = []) := by
  rcases exponentPart_eq_some_iff.mp h with
    ⟨-, rfl, -⟩ | ⟨c, others, found, rfl, -, hdigits, -, rfl⟩
  · exact ⟨[], rfl, fun _ => rfl⟩
  · obtain ⟨hothers, -⟩ := digits_eq_iff.mp hdigits
    obtain ⟨sign, hsign⟩ := exponentSign_sound others
    refine ⟨c :: (sign ++ found), ?_, by simp⟩
    rw [hsign, hothers]
    simp

/-- A numeral without point and exponent is a sign and digits. -/
theorem numeral_sound (h : numeral text = some (n, rest)) :
    ∃ used, text = used ++ rest ∧
      (n.fraction = none → n.exponent = none → ∀ c ∈ used, c = '-' ∨ c.isDigit = true) := by
  obtain ⟨-, u, v, hwhole, hfraction, hexponent⟩ := numeral_eq_some_iff.mp h
  obtain ⟨sign, htext, hminus⟩ := splitSign_sound text
  obtain ⟨hunsigned, hdigits, -⟩ := digits_eq_iff.mp (wholePart_eq_some_iff.mp hwhole).1
  obtain ⟨point, rfl, hpoint⟩ := fractionPart_sound hfraction
  obtain ⟨letter, rfl, hletter⟩ := exponentPart_sound hexponent
  refine ⟨sign ++ (n.whole ++ (point ++ letter)), ?_, ?_⟩
  · rw [htext, hunsigned]
    simp
  · intro hnofraction hnoexponent c hc
    rw [hpoint hnofraction, hletter hnoexponent] at hc
    simp only [List.append_nil, List.mem_append] at hc
    exact hc.imp (hminus c) (hdigits c)

end Numeral

end Raw

section Integers

theorem head?_toDigits {n : Nat} (hn : 0 < n) : (Nat.toDigits 10 n).head? ≠ some '0' := by
  induction n using Nat.strongRecOn with
  | ind n ih =>
      by_cases hsmall : n < 10
      · rw [Nat.toDigits_of_lt_base hsmall]
        have hall : ∀ d < 10, 0 < d → [Nat.digitChar d].head? ≠ some '0' := by decide
        exact hall n hsmall hn
      · rw [Nat.toDigits_of_base_le (by decide) (by omega), List.head?_append]
        have hquotient := ih (n / 10) (by omega) (by omega)
        cases hhead : (Nat.toDigits 10 (n / 10)).head? with
        | none => exact absurd (List.head?_eq_none_iff.mp hhead) Nat.toDigits_ne_nil
        | some c =>
            rw [hhead] at hquotient
            exact hquotient

theorem toDigits_ne_zero_cons (n : Nat) (c : Char) (others : List Char) :
    Nat.toDigits 10 n ≠ '0' :: c :: others := by
  intro h
  rcases Nat.eq_zero_or_pos n with rfl | hn
  · rw [Nat.toDigits_zero] at h
    cases h
  · apply head?_toDigits hn
    rw [h]
    rfl

theorem le_ofDigitChars (digits : List Char) (significand : Nat) :
    significand ≤ Nat.ofDigitChars 10 digits significand := by
  induction digits generalizing significand with
  | nil => simp
  | cons c digits ih =>
      rw [Nat.ofDigitChars_cons]
      have := ih (10 * significand + (c.toNat - '0'.toNat))
      omega

theorem Numeral.gather_eq {digits : List Char} {significand : Nat}
    (h : Nat.ofDigitChars 10 digits significand ≤ Text.max64) :
    gather significand digits = (Nat.ofDigitChars 10 digits significand, 0) := by
  induction digits generalizing significand with
  | nil => rfl
  | cons c digits ih =>
      rw [Nat.ofDigitChars_cons] at h ⊢
      have hnext : significand * 10 + (c.toNat - 48) =
          10 * significand + (c.toNat - '0'.toNat) := by
        rw [Nat.mul_comm]
        rfl
      have hle := le_ofDigitChars digits (10 * significand + (c.toNat - '0'.toNat))
      rw [gather, hnext, if_pos (by omega)]
      exact ih h

/-- The range of the integers that free values hold. -/
def InRange (n : Int) : Prop := -(2 ^ 63) ≤ n ∧ n < 2 ^ 64

theorem numeral_toDigits (n : Nat) :
    Raw.wholePart (Nat.toDigits 10 n) = some (Nat.toDigits 10 n, []) := by
  refine Raw.wholePart_eq_some_iff.mpr ⟨?_, Nat.toDigits_ne_nil, toDigits_ne_zero_cons n⟩
  refine Raw.digits_eq_iff.mpr ⟨(List.append_nil _).symm, ?_, ?_⟩
  · exact fun c hc => Nat.isDigit_of_mem_toDigits (by decide) (by decide) hc
  · rintro c ⟨⟩

theorem splitSign_integerText (n : Int) :
    Raw.splitSign (integerText n) = (decide (n < 0), Nat.toDigits 10 n.natAbs) := by
  by_cases hn : n < 0
  · simp [integerText, hn, Raw.splitSign]
  · have hdigit : ∀ c ∈ Nat.toDigits 10 n.natAbs, c ≠ '-' := by
      rintro c hc rfl
      have := Nat.isDigit_of_mem_toDigits (by decide) (by decide) hc
      exact absurd this (by decide)
    simp only [integerText, hn, ↓reduceIte, List.nil_append, decide_false]
    cases hdigits : Nat.toDigits 10 n.natAbs with
    | nil => rfl
    | cons c others =>
        have hc : c ≠ '-' := hdigit c (by simp [hdigits])
        simp [Raw.splitSign, hc]

theorem numeral_integerText (n : Int) :
    Raw.numeral (integerText n) = some (⟨n < 0, Nat.toDigits 10 n.natAbs, none, none⟩, []) := by
  rw [Raw.numeral_eq_some_iff, splitSign_integerText]
  exact ⟨rfl, [], [], numeral_toDigits _, rfl, rfl⟩

theorem value?_of_gather {negative : Bool} {whole : List Char} {significand : Nat}
    (h : Numeral.gather 0 whole = (significand, 0)) :
    Numeral.value? ⟨negative, whole, none, none⟩ = Numeral.integer negative significand := by
  simp [Numeral.value?, h]

theorem value?_integer {n : Int} (h : InRange n) :
    Numeral.value? ⟨n < 0, Nat.toDigits 10 n.natAbs, none, none⟩ = some (.integer n) := by
  obtain ⟨hlow, hhigh⟩ := h
  have hdigits : Nat.ofDigitChars 10 (Nat.toDigits 10 n.natAbs) 0 = n.natAbs :=
    Nat.ofDigitChars_ten_toDigits
  have hgather : Numeral.gather 0 (Nat.toDigits 10 n.natAbs) = (n.natAbs, 0) := by
    have hle : n.natAbs ≤ Text.max64 := by
      unfold Text.max64
      omega
    rw [Numeral.gather_eq (by omega), hdigits]
  rw [value?_of_gather hgather]
  by_cases hn : n < 0
  · have hrange : 0 < n.natAbs ∧ n.natAbs ≤ 0x8000000000000000 := by omega
    have hvalue : -(n.natAbs : Int) = n := by omega
    rw [Numeral.integer, decide_eq_true hn, if_neg (by decide), if_pos hrange, hvalue]
  · have hvalue : (n.natAbs : Int) = n := by omega
    rw [Numeral.integer, decide_eq_false hn, if_pos (by decide), hvalue]

end Integers

section Doubles

/-- A character that the text of a number can hold. -/
def IsNumeric (c : Char) : Prop := c.isDigit = true ∨ c = '.' ∨ c = 'e' ∨ c = '+' ∨ c = '-'

theorem IsNumeric.not_isSpace {c : Char} (h : IsNumeric c) : Raw.isSpace c = false := by
  rcases h with h | h
  · by_contra hspace
    simp only [Raw.isSpace, Bool.not_eq_false, Bool.or_eq_true, decide_eq_true_eq] at hspace
    rcases hspace with ((rfl | rfl) | rfl) | rfl <;> exact absurd h (by decide)
  · rcases h with rfl | rfl | rfl | rfl <;> decide

/-- Where a number may stand and nothing else, the reader reads a number. -/
theorem Raw.value_of_head {text : List Char} (fuel : Nat)
    (h : ∀ c, text.head? = some c → IsNumeric c) :
    value (fuel + 1) text = (numeral text).map fun p => (.number p.1.value?, p.2) := by
  have hskip : skip text = text := by
    cases text with
    | nil => rfl
    | cons c text => simp [skip, (h c rfl).not_isSpace]
  have hnumeral : value (fuel + 1) text = (numeral text).bind fun p =>
      some (.number p.1.value?, p.2) := by
    rw [value, hskip]
    split
    case h_7 => rfl
    all_goals exact absurd (h _ rfl) (by unfold IsNumeric; decide)
  rw [hnumeral]
  cases numeral text <;> rfl

theorem mem_of_mem_dropZeros {c : Char} {digits : List Char} (h : c ∈ Decimal.dropZeros digits) :
    c ∈ digits := by
  unfold Decimal.dropZeros at h
  have hmem := (List.dropWhile_sublist _).mem (List.mem_reverse.mp h)
  exact List.mem_reverse.mp hmem

theorem isNumeric_plain {digits : List Char} (hdigits : ∀ c ∈ digits, c.isDigit = true)
    (point : Int) : ∀ c ∈ Decimal.plain digits point, IsNumeric c := by
  intro c hc
  unfold Decimal.plain at hc
  split at hc
  · simp only [List.mem_cons, List.mem_append, List.mem_replicate] at hc
    rcases hc with rfl | rfl | ⟨-, rfl⟩ | hc
    · exact .inl (by decide)
    · exact .inr (by decide)
    · exact .inl (by decide)
    · exact .inl (hdigits c hc)
  · simp only [List.mem_append, List.mem_replicate, List.mem_cons] at hc
    rcases hc with (hc | ⟨-, rfl⟩) | rfl | hc
    · exact .inl (hdigits c (List.mem_of_mem_take hc))
    · exact .inl (by decide)
    · exact .inr (by decide)
    · split at hc
      · rw [List.mem_singleton.mp hc]
        exact .inl (by decide)
      · exact .inl (hdigits c (List.mem_of_mem_drop hc))

theorem isNumeric_powered {digits : List Char} (hdigits : ∀ c ∈ digits, c.isDigit = true)
    (exponent : Int) : ∀ c ∈ Decimal.powered digits exponent, IsNumeric c := by
  intro c hc
  unfold Decimal.powered at hc
  simp only [List.mem_append, List.mem_cons] at hc
  rcases hc with (hc | hc) | rfl | rfl | hc
  · exact .inl (hdigits c (List.mem_of_mem_take hc))
  · split at hc
    · cases hc
    · rcases List.mem_cons.mp hc with rfl | hc
      · exact .inr (by decide)
      · exact .inl (hdigits c (List.mem_of_mem_drop hc))
  · exact .inr (by decide)
  · split <;> exact .inr (by decide)
  · exact .inl (Nat.isDigit_of_mem_toDigits (by decide) (by decide) hc)

theorem isNumeric_text (layout : Decimal.Layout) (x : Double) :
    ∀ c ∈ layout.text x, IsNumeric c := by
  intro c hc
  unfold Decimal.Layout.text at hc
  rcases List.mem_append.mp hc with hc | hc
  · split at hc
    · rw [List.mem_singleton.mp hc]
      exact .inr (by decide)
    · cases hc
  · split at hc
    · simp only [List.mem_cons, List.not_mem_nil, or_false] at hc
      rcases hc with rfl | rfl | rfl
      · exact .inl (by decide)
      · exact .inr (by decide)
      · exact .inl (by decide)
    · have hdigits : ∀ c ∈ Decimal.dropZeros (Nat.toDigits 10 (Decimal.shortest x.rank).digits),
          c.isDigit = true :=
        fun c hc => Nat.isDigit_of_mem_toDigits (by decide) (by decide) (mem_of_mem_dropZeros hc)
      unfold Decimal.Layout.write at hc
      simp only at hc
      split at hc
      · exact isNumeric_plain hdigits _ c hc
      · exact isNumeric_powered hdigits _ c hc

theorem mark_mem_write (layout : Decimal.Layout) (d : Decimal) :
    '.' ∈ layout.write d ∨ 'e' ∈ layout.write d := by
  unfold Decimal.Layout.write
  simp only
  split
  · left
    unfold Decimal.plain
    split <;> simp
  · right
    unfold Decimal.powered
    simp

/-- The text of a double holds a point or an exponent, so it is not taken for an integer. -/
theorem mark_mem_text (layout : Decimal.Layout) (x : Double) :
    '.' ∈ layout.text x ∨ 'e' ∈ layout.text x := by
  unfold Decimal.Layout.text
  simp only [List.mem_append]
  by_cases hzero : x.rank = 0
  · rw [if_pos hzero]
    exact .inl (.inr (by decide))
  · rw [if_neg hzero]
    exact (mark_mem_write layout _).imp .inr .inr

theorem Numeral.whole_of_value?_integer {n : Numeral} {m : Int} (h : n.value? = some (.integer m)) :
    n.fraction = none ∧ n.exponent = none := by
  obtain ⟨negative, whole, fraction, exponent⟩ := n
  cases fraction with
  | none =>
      cases exponent with
      | none => exact ⟨rfl, rfl⟩
      | some exponent => simp [value?] at h
  | some fraction => simp [value?] at h

/-- The text of the double, read alone, is the double again. -/
def ReadsBack (x : Double) : Prop :=
  decode? Decoder.real (String.ofList (numberLayout.text x)) = some x

theorem ReadsBack.numeral {x : Double} (h : ReadsBack x) :
    ∃ n, Raw.numeral (numberLayout.text x) = some (n, []) ∧ n.value? = some (.real x) := by
  have hnumeric := isNumeric_text numberLayout x
  have hmark := mark_mem_text numberLayout x
  unfold ReadsBack decode? Raw.read? at h
  rw [String.toList_ofList] at h
  simp only [Raw.value_of_head _ fun c hc => hnumeric c (List.mem_of_mem_head? hc)] at h
  generalize numberLayout.text x = text at h hnumeric hmark
  cases hnumeral : Raw.numeral text with
  | none => simp [hnumeral] at h
  | some found =>
      obtain ⟨n, rest⟩ := found
      obtain ⟨used, rfl, hplain⟩ := Raw.numeral_sound hnumeral
      have hrest : Raw.skip rest = rest := by
        cases rest with
        | nil => rfl
        | cons c rest => simp [Raw.skip, (hnumeric c (by simp)).not_isSpace]
      simp only [hnumeral, Option.map_some, hrest] at h
      cases rest with
      | cons c rest => simp at h
      | nil =>
          refine ⟨n, by simp, ?_⟩
          simp only [List.isEmpty_nil, ↓reduceIte, Option.bind_some] at h
          cases hvalue : n.value? with
          | none => simp [hvalue, Decoder.real] at h
          | some number =>
              cases number with
              | real y => simpa [hvalue, Decoder.real] using h
              | integer m =>
                  have hwhole := Numeral.whole_of_value?_integer hvalue
                  have hchars := hplain hwhole.1 hwhole.2
                  simp only [List.append_nil] at hmark
                  rcases hmark with hmark | hmark
                  · exact absurd (hchars _ hmark) (by decide)
                  · exact absurd (hchars _ hmark) (by decide)

end Doubles

end Orchestration.Json
