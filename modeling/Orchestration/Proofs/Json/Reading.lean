import Orchestration.Proofs.Json.Numerals
import Orchestration.Proofs.Json.Quoted

namespace Orchestration.Json

@[elab_as_elim]
theorem induction_on {motive : Json → Prop} (value : Json) (null : motive .null)
    (bool : ∀ b, motive (.bool b)) (number : ∀ n, motive (.number n))
    (string : ∀ text, motive (.string text))
    (array : ∀ items, (∀ item ∈ items, motive item) → motive (.array items))
    (object : ∀ members, (∀ member ∈ members, motive member.2) → motive (.object members)) :
    motive value :=
  match value with
  | .null => null
  | .bool b => bool b
  | .number n => number n
  | .string text => string text
  | .array items => array items fun item _ =>
      induction_on item null bool number string array object
  | .object members => object members fun member _ =>
      induction_on member.2 null bool number string array object
termination_by sizeOf value
decreasing_by
  · have := List.sizeOf_lt_of_mem ‹_›
    simp only [Json.array.sizeOf_spec]
    omega
  · rename_i hmember
    have := List.sizeOf_lt_of_mem hmember
    obtain ⟨key, value⟩ := member
    simp only [Json.object.sizeOf_spec, Prod.mk.sizeOf_spec] at this ⊢
    omega

mutual

/-- The value as it is written. -/
def toRaw : Json → Raw
  | .null => .null
  | .bool b => .bool b
  | .number n => .number (some n)
  | .string text => .string (some text)
  | .array items => .array (itemsToRaw items)
  | .object members => .object (membersToRaw members)

def itemsToRaw : List Json → List Raw
  | [] => []
  | item :: items => item.toRaw :: itemsToRaw items

def membersToRaw : List (String × Json) → List (Option String × Raw)
  | [] => []
  | (key, value) :: members => (some key, value.toRaw) :: membersToRaw members

end

mutual

def numbers : Json → List Number
  | .number n => [n]
  | .array items => itemNumbers items
  | .object members => memberNumbers members
  | _ => []

def itemNumbers : List Json → List Number
  | [] => []
  | item :: items => item.numbers ++ itemNumbers items

def memberNumbers : List (String × Json) → List Number
  | [] => []
  | (_, value) :: members => value.numbers ++ memberNumbers members

end

section Numbers

/-- The number reads back: integers do in their range, and doubles if their text does. -/
def Number.Legible : Number → Prop
  | .integer n => InRange n
  | .real x => ReadsBack x

variable {n : Number}

theorem Number.Legible.numeral (h : n.Legible) :
    ∃ numeral, Raw.numeral n.text = some (numeral, []) ∧ numeral.value? = some n := by
  cases n with
  | integer m => exact ⟨_, numeral_integerText m, value?_integer h⟩
  | real x => exact ReadsBack.numeral h

theorem Number.isNumeric_text (n : Number) : ∀ c ∈ n.text, IsNumeric c := by
  cases n with
  | integer m =>
      intro c hc
      unfold Number.text integerText at hc
      rcases List.mem_append.mp hc with hc | hc
      · split at hc
        · rw [List.mem_singleton.mp hc]
          exact .inr (by decide)
        · cases hc
      · exact .inl (Nat.isDigit_of_mem_toDigits (by decide) (by decide) hc)
  | real x => exact Json.isNumeric_text numberLayout x

end Numbers

section Blanks

def Blank (text : List Char) : Prop := ∀ c ∈ text, Raw.isSpace c = true

/-- The style puts nothing but blanks between the parts of a value. -/
structure Style.Plain (style : Style) : Prop where
  lineBreak : ∀ level, Blank (style.lineBreak level)
  colon : ∃ blanks, style.colon = ':' :: blanks ∧ Blank blanks

theorem Style.plain_compact : Style.compact.Plain where
  lineBreak := by simp [Style.compact, Blank]
  colon := ⟨[], rfl, by simp [Blank]⟩

theorem Style.plain_pretty : Style.pretty.Plain where
  lineBreak := by
    intro level c hc
    simp only [Style.pretty, List.mem_cons, List.mem_replicate] at hc
    rcases hc with rfl | ⟨-, rfl⟩ <;> decide
  colon := ⟨[' '], rfl, by simp [Blank, Raw.isSpace]⟩

namespace Raw

variable {blanks text : List Char} {c : Char}

theorem skip_append (hblanks : Blank blanks) (text : List Char) :
    skip (blanks ++ text) = skip text :=
  List.dropWhile_append_of_pos hblanks

theorem skip_cons (hc : isSpace c = false) (text : List Char) : skip (c :: text) = c :: text := by
  simp [skip, hc]

theorem value_append (hblanks : Blank blanks) (fuel : Nat) (text : List Char) :
    value fuel (blanks ++ text) = value fuel text := by
  cases fuel with
  | zero => rfl
  | succ fuel => rw [value, value, skip_append hblanks]

theorem terminated_append (hblanks : Blank blanks) (h : Terminated text) :
    Terminated (blanks ++ text) := by
  cases blanks with
  | nil => exact h
  | cons c blanks =>
      rintro _ ⟨⟩
      have hspace := hblanks c List.mem_cons_self
      simp only [isSpace, Bool.or_eq_true, decide_eq_true_eq] at hspace
      rcases hspace with ((rfl | rfl) | rfl) | rfl <;> decide

theorem terminated_cons (hc : c = ',' ∨ c = ']' ∨ c = '}') (text : List Char) :
    Terminated (c :: text) := by
  rintro _ ⟨⟩
  rcases hc with rfl | rfl | rfl <;> decide

end Raw

end Blanks

namespace Raw

section Steps

variable {fuel : Nat} {text tail : List Char}

theorem value_quoted {found : Option String} (h : quotedRest text = some (found, tail)) :
    value (fuel + 1) ('\"' :: text) = some (.string found, tail) := by
  rw [value, skip_cons (by decide)]
  simp [h]

/-- The first character of a value: no blank, and no bracket that closes. -/
def Opens (text : List Char) : Prop :=
  ∃ c others, text = c :: others ∧ isSpace c = false ∧ c ≠ ']'

theorem skip_of_opens {blanks : List Char} (hblanks : Blank blanks) (h : Opens text) :
    skip (blanks ++ text) = text := by
  obtain ⟨c, others, rfl, hspace, -⟩ := h
  rw [skip_append hblanks, skip_cons hspace]

theorem value_array_nil : value (fuel + 1) ('[' :: ']' :: tail) = some (.array [], tail) := by
  rw [value, skip_cons (by decide)]
  simp only [skip_cons (show isSpace ']' = false by decide)]

theorem value_object_nil : value (fuel + 1) ('{' :: '}' :: tail) = some (.object [], tail) := by
  rw [value, skip_cons (by decide)]
  simp only [skip_cons (show isSpace '}' = false by decide)]

theorem value_array {found : List Raw} {others : List Char} (hskip : skip text = others)
    (hothers : Opens others) (h : items fuel text = some (found, tail)) :
    value (fuel + 1) ('[' :: text) = some (.array found, tail) := by
  obtain ⟨c, rest, rfl, -, hc⟩ := hothers
  rw [value, skip_cons (by decide)]
  simp only [hskip]
  split
  next heq => exact absurd (List.cons.inj heq).1 hc
  next => simp [h]

theorem value_object {found : List (Option String × Raw)} {others : List Char}
    (hskip : skip text = '\"' :: others) (h : members fuel text = some (found, tail)) :
    value (fuel + 1) ('{' :: text) = some (.object found, tail) := by
  rw [value, skip_cons (by decide)]
  simp [hskip, h]

theorem items_last {item : Raw} {rest : List Char} (hitem : value fuel text = some (item, rest))
    (hrest : skip rest = ']' :: tail) : items (fuel + 1) text = some ([item], tail) := by
  rw [items, hitem]
  simp [hrest]

theorem items_more {item : Raw} {rest others : List Char} {found : List Raw}
    (hitem : value fuel text = some (item, rest)) (hrest : skip rest = ',' :: others)
    (hfound : items fuel others = some (found, tail)) :
    items (fuel + 1) text = some (item :: found, tail) := by
  rw [items, hitem]
  simp [hrest, hfound]

variable {key : Option String} {afterQuote afterKey afterColon rest others : List Char} {item : Raw}

theorem members_last (htext : skip text = '\"' :: afterQuote)
    (hkey : quotedRest afterQuote = some (key, afterKey))
    (hcolon : skip afterKey = ':' :: afterColon)
    (hitem : value fuel afterColon = some (item, rest)) (hrest : skip rest = '}' :: tail) :
    members (fuel + 1) text = some ([(key, item)], tail) := by
  rw [members, htext]
  simp [hkey, hcolon, hitem, hrest]

theorem members_more {found : List (Option String × Raw)}
    (htext : skip text = '\"' :: afterQuote)
    (hkey : quotedRest afterQuote = some (key, afterKey))
    (hcolon : skip afterKey = ':' :: afterColon)
    (hitem : value fuel afterColon = some (item, rest)) (hrest : skip rest = ',' :: others)
    (hfound : members fuel others = some (found, tail)) :
    members (fuel + 1) text = some ((key, item) :: found, tail) := by
  rw [members, htext]
  simp [hkey, hcolon, hitem, hrest, hfound]

end Steps

end Raw

section Writing

variable {style : Style}

/-- The value is read where it is written, blanks may stand before it, and what comes after it is
left. Fuel of twice its length is enough. -/
def ReadsAs (style : Style) (value : Json) : Prop :=
  ∀ level fuel blanks rest, Blank blanks → Raw.Terminated rest →
    2 * (write style level value).length ≤ fuel →
      Raw.value fuel (blanks ++ (write style level value ++ rest)) = some (value.toRaw, rest)

theorem Number.Legible.opens {n : Number} (h : n.Legible) (rest : List Char) :
    Raw.Opens (n.text ++ rest) := by
  obtain ⟨numeral, hnumeral, -⟩ := h.numeral
  have hnumeric := n.isNumeric_text
  cases htext : n.text with
  | nil =>
      rw [htext] at hnumeral
      cases hnumeral
  | cons c others =>
      have hc : IsNumeric c := hnumeric c (by simp [htext])
      refine ⟨c, others ++ rest, rfl, hc.not_isSpace, ?_⟩
      rintro rfl
      unfold IsNumeric at hc
      exact absurd hc (by decide)

theorem opens_write (style : Style) {value : Json} (hlegible : ∀ n ∈ value.numbers, n.Legible)
    (level : Nat) (rest : List Char) : Raw.Opens (write style level value ++ rest) := by
  cases value with
  | null => exact ⟨'n', _, rfl, by decide, by decide⟩
  | bool b =>
      cases b with
      | true => exact ⟨'t', _, rfl, by decide, by decide⟩
      | false => exact ⟨'f', _, rfl, by decide, by decide⟩
  | number n =>
      rw [write]
      exact (hlegible n (by simp [numbers])).opens rest
  | string text => exact ⟨'\"', _, rfl, by decide, by decide⟩
  | array items =>
      cases items with
      | nil => exact ⟨'[', _, rfl, by decide, by decide⟩
      | cons item items => exact ⟨'[', _, rfl, by decide, by decide⟩
  | object members =>
      cases members with
      | nil => exact ⟨'{', _, rfl, by decide, by decide⟩
      | cons member members => exact ⟨'{', _, rfl, by decide, by decide⟩

theorem terminated_writeItems (style : Style) (level : Nat) (items : List Json)
    {close : List Char} (hclose : Blank close) (rest : List Char) :
    Raw.Terminated (writeItems style level items ++ (close ++ ']' :: rest)) := by
  cases items with
  | nil =>
      rw [writeItems, List.nil_append]
      exact Raw.terminated_append hclose (Raw.terminated_cons (by decide) rest)
  | cons item items => exact Raw.terminated_cons (by decide) _

theorem terminated_writeMembers (style : Style) (level : Nat) (members : List (String × Json))
    {close : List Char} (hclose : Blank close) (rest : List Char) :
    Raw.Terminated (writeMembers style level members ++ (close ++ '}' :: rest)) := by
  cases members with
  | nil =>
      rw [writeMembers, List.nil_append]
      exact Raw.terminated_append hclose (Raw.terminated_cons (by decide) rest)
  | cons member members => exact Raw.terminated_cons (by decide) _

theorem items_write (hplain : style.Plain) {level : Nat} {close : List Char} (hclose : Blank close)
    (rest : List Char) {item : Json} {items : List Json}
    (hreads : ∀ value ∈ item :: items, ReadsAs style value) {fuel : Nat} {blanks : List Char}
    (hblanks : Blank blanks)
    (hfuel : 2 * (write style level item ++ writeItems style level items).length + 2 ≤ fuel) :
    Raw.items fuel (blanks ++ (write style level item ++
      (writeItems style level items ++ (close ++ ']' :: rest)))) =
        some (itemsToRaw (item :: items), rest) := by
  induction items generalizing item fuel blanks with
  | nil =>
      obtain ⟨fuel, rfl⟩ : ∃ f, fuel = f + 1 := ⟨fuel - 1, by omega⟩
      rw [writeItems, List.append_nil] at hfuel
      have hitem := hreads item List.mem_cons_self level fuel blanks _ hblanks
        (terminated_writeItems style level [] hclose rest) (by omega)
      apply Raw.items_last hitem
      rw [writeItems, List.nil_append, Raw.skip_append hclose, Raw.skip_cons (by decide)]
  | cons next items ih =>
      obtain ⟨fuel, rfl⟩ : ∃ f, fuel = f + 1 := ⟨fuel - 1, by omega⟩
      simp only [writeItems, List.length_append, List.length_cons] at hfuel
      have hitem := hreads item List.mem_cons_self level fuel blanks _ hblanks
        (terminated_writeItems style level (next :: items) hclose rest) (by omega)
      have hnext : ∀ value ∈ next :: items, ReadsAs style value :=
        fun value hvalue => hreads value (List.mem_cons_of_mem _ hvalue)
      have hless : 2 * (write style level next ++ writeItems style level items).length + 2 ≤
          fuel := by
        rw [List.length_append]
        omega
      have hothers := ih hnext (hplain.lineBreak level) hless
      refine Raw.items_more hitem ?_ hothers
      simp only [writeItems, List.cons_append, List.append_assoc]
      exact Raw.skip_cons (by decide) _

theorem skip_quoted {blanks : List Char} (hblanks : Blank blanks) (text : String)
    (others : List Char) : Raw.skip (blanks ++ (quoted text ++ others)) =
      '\"' :: (text.toList.flatMap escape ++ '\"' :: others) := by
  rw [Raw.skip_append hblanks, quoted, List.cons_append, Raw.skip_cons (by decide)]
  simp

theorem members_write (hplain : style.Plain) {level : Nat} {close : List Char}
    (hclose : Blank close) (rest : List Char) {key : String} {value : Json}
    {members : List (String × Json)}
    (hreads : ∀ member ∈ (key, value) :: members, ReadsAs style member.2) {fuel : Nat}
    {blanks : List Char} (hblanks : Blank blanks)
    (hfuel : 2 * (quoted key ++ (style.colon ++ (write style level value ++
      writeMembers style level members))).length + 2 ≤ fuel) :
    Raw.members fuel (blanks ++ (quoted key ++ (style.colon ++ (write style level value ++
      (writeMembers style level members ++ (close ++ '}' :: rest)))))) =
        some (membersToRaw ((key, value) :: members), rest) := by
  obtain ⟨gap, hcolon, hgap⟩ := hplain.colon
  induction members generalizing key value fuel blanks with
  | nil =>
      obtain ⟨fuel, rfl⟩ : ∃ f, fuel = f + 1 := ⟨fuel - 1, by omega⟩
      simp only [writeMembers, List.length_append, List.append_nil] at hfuel
      have hread : ReadsAs style value := hreads (key, value) List.mem_cons_self
      have hvalue := hread level fuel gap _ hgap
        (terminated_writeMembers style level [] hclose rest) (by omega)
      refine Raw.members_last (skip_quoted hblanks key _) (Raw.quotedRest_escape key _) ?_ hvalue ?_
      · rw [hcolon]
        exact Raw.skip_cons (by decide) _
      · rw [writeMembers, List.nil_append, Raw.skip_append hclose, Raw.skip_cons (by decide)]
  | cons next members ih =>
      obtain ⟨nextKey, nextValue⟩ := next
      obtain ⟨fuel, rfl⟩ : ∃ f, fuel = f + 1 := ⟨fuel - 1, by omega⟩
      simp only [writeMembers, List.length_append, List.length_cons] at hfuel
      have hread : ReadsAs style value := hreads (key, value) List.mem_cons_self
      have hvalue := hread level fuel gap _ hgap
        (terminated_writeMembers style level ((nextKey, nextValue) :: members) hclose rest)
        (by omega)
      have hnext : ∀ member ∈ (nextKey, nextValue) :: members, ReadsAs style member.2 :=
        fun member hmember => hreads member (List.mem_cons_of_mem _ hmember)
      have hless : 2 * (quoted nextKey ++ (style.colon ++ (write style level nextValue ++
          writeMembers style level members))).length + 2 ≤ fuel := by
        simp only [List.length_append]
        omega
      have hothers := ih hnext (hplain.lineBreak level) hless
      refine Raw.members_more (skip_quoted hblanks key _) (Raw.quotedRest_escape key _) ?_ hvalue ?_
        hothers
      · rw [hcolon]
        exact Raw.skip_cons (by decide) _
      · simp only [writeMembers, List.cons_append, List.append_assoc]
        exact Raw.skip_cons (by decide) _

theorem mem_itemNumbers {n : Number} {items : List Json} :
    n ∈ itemNumbers items ↔ ∃ item ∈ items, n ∈ item.numbers := by
  induction items with
  | nil => simp [itemNumbers]
  | cons item items ih => simp [itemNumbers, ih]

theorem mem_memberNumbers {n : Number} {members : List (String × Json)} :
    n ∈ memberNumbers members ↔ ∃ member ∈ members, n ∈ member.2.numbers := by
  induction members with
  | nil => simp [memberNumbers]
  | cons member members ih => simp [memberNumbers, ih]

/-- Blanks before a value can be left out, and no value is written without a character. -/
theorem ReadsAs.of_step {value : Json} (hlegible : ∀ n ∈ value.numbers, n.Legible)
    (hstep : ∀ level fuel rest, Raw.Terminated rest →
      2 * (write style level value).length ≤ fuel + 1 →
        Raw.value (fuel + 1) (write style level value ++ rest) = some (value.toRaw, rest)) :
    ReadsAs style value := by
  intro level fuel blanks rest hblanks hrest hfuel
  obtain ⟨c, others, htext, -, -⟩ := opens_write style hlegible level []
  have hlength : (write style level value).length = others.length + 1 := by
    rw [List.append_nil] at htext
    rw [htext, List.length_cons]
  obtain ⟨fuel, rfl⟩ : ∃ f, fuel = f + 1 := ⟨fuel - 1, by omega⟩
  rw [Raw.value_append hblanks]
  exact hstep level fuel rest hrest hfuel

theorem Number.Legible.readsAs {n : Number} (h : n.Legible) : ReadsAs style (.number n) := by
  refine ReadsAs.of_step (by simpa [numbers] using h) ?_
  intro level fuel rest hrest _
  obtain ⟨numeral, hnumeral, hvalue⟩ := h.numeral
  have hread := Raw.numeral_append hnumeral hrest
  have hhead : ∀ c, (n.text ++ rest).head? = some c → IsNumeric c := by
    intro c hc
    cases htext : n.text with
    | nil =>
        rw [htext] at hnumeral
        cases hnumeral
    | cons first others =>
        rw [htext] at hc
        cases hc
        exact n.isNumeric_text c (by simp [htext])
  rw [write, Raw.value_of_head fuel hhead, hread]
  simp [hvalue, toRaw]

theorem readsAs_array (hplain : style.Plain) {items : List Json}
    (hlegible : ∀ n ∈ (array items).numbers, n.Legible)
    (hreads : ∀ item ∈ items, ReadsAs style item) : ReadsAs style (.array items) := by
  refine .of_step hlegible fun level fuel rest _ hfuel => ?_
  cases items with
  | nil => exact Raw.value_array_nil
  | cons item items =>
      simp only [write, List.length_append, List.length_cons] at hfuel
      have hless : 2 * (write style (level + 1) item ++
          writeItems style (level + 1) items).length + 2 ≤ fuel := by
        rw [List.length_append]
        omega
      have hfound := items_write hplain (hplain.lineBreak level) rest hreads
        (hplain.lineBreak (level + 1)) hless
      have hitem : ∀ n ∈ item.numbers, n.Legible :=
        fun n hn => hlegible n (mem_itemNumbers.mpr ⟨item, List.mem_cons_self, hn⟩)
      have hopens := opens_write style hitem (level + 1)
      have hread := Raw.value_array
        (Raw.skip_of_opens (hplain.lineBreak (level + 1)) (hopens _)) (hopens _) hfound
      simpa [write, toRaw] using hread

theorem readsAs_object (hplain : style.Plain) {members : List (String × Json)}
    (hlegible : ∀ n ∈ (object members).numbers, n.Legible)
    (hreads : ∀ member ∈ members, ReadsAs style member.2) : ReadsAs style (.object members) := by
  refine .of_step hlegible fun level fuel rest _ hfuel => ?_
  cases members with
  | nil => exact Raw.value_object_nil
  | cons member members =>
      obtain ⟨key, value⟩ := member
      simp only [write, List.length_append, List.length_cons] at hfuel
      have hless : 2 * (quoted key ++ (style.colon ++ (write style (level + 1) value ++
          writeMembers style (level + 1) members))).length + 2 ≤ fuel := by
        simp only [List.length_append]
        omega
      have hfound := members_write hplain (hplain.lineBreak level) rest hreads
        (hplain.lineBreak (level + 1)) hless
      have hread := Raw.value_object (skip_quoted (hplain.lineBreak (level + 1)) key _) hfound
      simpa [write, toRaw] using hread

theorem readsAs (hplain : style.Plain) {value : Json} (hlegible : ∀ n ∈ value.numbers, n.Legible) :
    ReadsAs style value := by
  induction value using induction_on with
  | null => exact .of_step hlegible fun _ _ _ _ _ => rfl
  | bool b => exact .of_step hlegible fun _ _ _ _ _ => by cases b <;> rfl
  | number n => exact (hlegible n (by simp [numbers])).readsAs
  | string text =>
      refine .of_step hlegible fun level fuel rest _ _ => ?_
      rw [write, quoted, List.cons_append]
      apply Raw.value_quoted
      rw [List.append_assoc]
      exact Raw.quotedRest_escape text rest
  | array items ih =>
      apply readsAs_array hplain hlegible
      intro item hitem
      exact ih item hitem fun n hn => hlegible n (mem_itemNumbers.mpr ⟨item, hitem, hn⟩)
  | object members ih =>
      apply readsAs_object hplain hlegible
      intro member hmember
      exact ih member hmember fun n hn => hlegible n (mem_memberNumbers.mpr ⟨member, hmember, hn⟩)

/-- The reader undoes the writer. -/
theorem read?_text (hplain : style.Plain) {value : Json}
    (hlegible : ∀ n ∈ value.numbers, n.Legible) :
    Raw.read? (value.text style) = some value.toRaw := by
  have hread := readsAs hplain hlegible 0 (2 * (write style 0 value).length + 1) [] []
    (by simp [Blank]) Raw.terminated_nil (by omega)
  rw [List.nil_append, List.append_nil] at hread
  simp [Raw.read?, text, hread, Raw.skip]

end Writing

end Orchestration.Json
