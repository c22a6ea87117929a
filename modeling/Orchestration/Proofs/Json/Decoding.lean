import Orchestration.Proofs.Entries
import Orchestration.Proofs.Json.Reading

namespace Orchestration.Json

mutual

/-- How deep arrays and objects are nested. -/
def depth : Json → Nat
  | .array items => itemsDepth items + 1
  | .object members => membersDepth members + 1
  | _ => 0

def itemsDepth : List Json → Nat
  | [] => 0
  | item :: items => max item.depth (itemsDepth items)

def membersDepth : List (String × Json) → Nat
  | [] => 0
  | (_, value) :: members => max value.depth (membersDepth members)

end

/-- A value that can be free: its integers are in range, and its objects have their members in
ascending key order. -/
inductive Proper : Json → Prop
  | null : Proper .null
  | bool (b : Bool) : Proper (.bool b)
  | integer {n : Int} (h : InRange n) : Proper (.number (.integer n))
  | real (x : Double) : Proper (.number (.real x))
  | string (text : String) : Proper (.string text)
  | array {items : List Json} (h : ∀ item ∈ items, Proper item) : Proper (.array items)
  | object {members : List (String × Json)} (hkeys : (Entries.keys members).Pairwise (· < ·))
      (h : ∀ member ∈ members, Proper member.2) : Proper (.object members)

section Integers

def IntegersInRange (value : Json) : Prop := ∀ n, .integer n ∈ value.numbers → InRange n

theorem integersInRange_array {items : List Json} (h : ∀ item ∈ items, item.IntegersInRange) :
    (array items).IntegersInRange := by
  intro n hn
  obtain ⟨item, hitem, hmem⟩ := mem_itemNumbers.mp hn
  exact h item hitem n hmem

theorem integersInRange_object {members : List (String × Json)}
    (h : ∀ member ∈ members, member.2.IntegersInRange) : (object members).IntegersInRange := by
  intro n hn
  obtain ⟨member, hmember, hmem⟩ := mem_memberNumbers.mp hn
  exact h member hmember n hmem

theorem integersInRange_string (text : String) : (string text).IntegersInRange := by
  rintro n ⟨⟩

theorem integersInRange_real (x : Double) : (number (.real x)).IntegersInRange := by
  intro n hn
  simp [numbers] at hn

theorem integersInRange_integer {n : Int} (h : InRange n) :
    (number (.integer n)).IntegersInRange := by
  intro m hm
  simp only [numbers, List.mem_singleton, Number.integer.injEq] at hm
  exact hm ▸ h

theorem Proper.integersInRange {value : Json} (h : value.Proper) : value.IntegersInRange := by
  induction h with
  | null => rintro n ⟨⟩
  | bool b => rintro n ⟨⟩
  | integer h => exact integersInRange_integer h
  | real x => exact integersInRange_real x
  | string text => exact integersInRange_string text
  | array _ ih => exact integersInRange_array ih
  | object _ _ ih => exact integersInRange_object ih

end Integers

section Depth

theorem depth_le_itemsDepth {item : Json} {items : List Json} (h : item ∈ items) :
    item.depth ≤ itemsDepth items := by
  induction items with
  | nil => cases h
  | cons first items ih =>
      rw [itemsDepth]
      rcases List.mem_cons.mp h with rfl | h
      · exact Nat.le_max_left _ _
      · exact Nat.le_trans (ih h) (Nat.le_max_right _ _)

theorem depth_le_membersDepth {member : String × Json} {members : List (String × Json)}
    (h : member ∈ members) : member.2.depth ≤ membersDepth members := by
  induction members with
  | nil => cases h
  | cons first members ih =>
      rw [membersDepth]
      rcases List.mem_cons.mp h with rfl | h
      · exact Nat.le_max_left _ _
      · exact Nat.le_trans (ih h) (Nat.le_max_right _ _)

end Depth

section Values

theorem exists_itemsOfRaw? {levels : Nat} {items : List Json}
    (h : ∀ item ∈ items, ∃ found, ofRaw? levels item.toRaw = some found ∧
      (item.Proper → found = item)) :
    ∃ found, itemsOfRaw? levels (itemsToRaw items) = some found ∧
      ((∀ item ∈ items, item.Proper) → found = items) := by
  induction items with
  | nil => exact ⟨[], rfl, fun _ => rfl⟩
  | cons item items ih =>
      rw [List.forall_mem_cons] at h
      obtain ⟨first, hfirst, hsame⟩ := h.1
      obtain ⟨others, hothers, hrest⟩ := ih h.2
      refine ⟨first :: others, by simp [itemsToRaw, itemsOfRaw?, hfirst, hothers], ?_⟩
      intro hproper
      rw [List.forall_mem_cons] at hproper
      rw [hsame hproper.1, hrest hproper.2]

theorem exists_membersOfRaw? {levels : Nat} {members : List (String × Json)}
    (h : ∀ member ∈ members, ∃ found, ofRaw? levels member.2.toRaw = some found ∧
      (member.2.Proper → found = member.2)) :
    ∃ found, membersOfRaw? levels (membersToRaw members) = some found ∧
      ((∀ member ∈ members, member.2.Proper) → found = members) := by
  induction members with
  | nil => exact ⟨[], rfl, fun _ => rfl⟩
  | cons member members ih =>
      obtain ⟨key, value⟩ := member
      rw [List.forall_mem_cons] at h
      obtain ⟨first, hfirst, hsame⟩ := h.1
      obtain ⟨others, hothers, hrest⟩ := ih h.2
      refine ⟨(key, first) :: others, ?_, ?_⟩
      · simp only at hfirst
        simp [membersToRaw, membersOfRaw?, hfirst, hothers]
      · intro hproper
        rw [List.forall_mem_cons] at hproper
        rw [hsame hproper.1, hrest hproper.2]

/-- A written value is one that can be read as any value, and it is the value itself if that is
proper. -/
theorem exists_ofRaw? {value : Json} {levels : Nat} (hdepth : value.depth ≤ levels) :
    ∃ found, ofRaw? levels value.toRaw = some found ∧ (value.Proper → found = value) := by
  induction value using induction_on generalizing levels with
  | null => exact ⟨.null, rfl, fun _ => rfl⟩
  | bool b => exact ⟨.bool b, rfl, fun _ => rfl⟩
  | number n => exact ⟨.number n, rfl, fun _ => rfl⟩
  | string text => exact ⟨.string text, rfl, fun _ => rfl⟩
  | array items ih =>
      rw [depth] at hdepth
      have hitems : ∀ item ∈ items, ∃ found, ofRaw? (levels - 1) item.toRaw = some found ∧
          (item.Proper → found = item) := by
        intro item hitem
        have := depth_le_itemsDepth hitem
        exact ih item hitem (by omega)
      obtain ⟨found, hfound, hsame⟩ := exists_itemsOfRaw? hitems
      refine ⟨.array found, ?_, ?_⟩
      · rw [toRaw, ofRaw?, if_neg (by omega), hfound]
        rfl
      · rintro (_ | _ | _ | _ | _ | hproper)
        rw [hsame hproper]
  | object members ih =>
      rw [depth] at hdepth
      have hmembers : ∀ member ∈ members, ∃ found,
          ofRaw? (levels - 1) member.2.toRaw = some found ∧
            (member.2.Proper → found = member.2) := by
        intro member hmember
        have := depth_le_membersDepth hmember
        exact ih member hmember (by omega)
      obtain ⟨found, hfound, hsame⟩ := exists_membersOfRaw? hmembers
      refine ⟨ofEntries (Entries.ofList found), ?_, ?_⟩
      · rw [toRaw, ofRaw?, if_neg (by omega), hfound]
        rfl
      · rintro (_ | _ | _ | _ | _ | _ | ⟨hkeys, hproper⟩)
        rw [hsame hproper, Entries.ofList_eq_self hkeys]
        rfl

theorem any_toRaw {value : Json} {levels : Nat} (hproper : value.Proper)
    (hdepth : value.depth ≤ levels) : Decoder.any levels value.toRaw = some value := by
  obtain ⟨found, hfound, hsame⟩ := exists_ofRaw? hdepth
  rw [Decoder.any, hfound, hsame hproper]

end Values

namespace Decoder

variable {α β : Type} {levels : Nat}

theorem first_toRaw {decoders : List (Decoder α)} {value : Json} (hdepth : value.depth ≤ levels) :
    first decoders levels value.toRaw =
      decoders.findSome? fun decoder => decoder levels value.toRaw := by
  obtain ⟨found, hfound, -⟩ := exists_ofRaw? hdepth
  simp [first, any, hfound]

theorem option_any_toRaw {value : Json} (hnull : value ≠ .null) :
    option any levels value.toRaw = (any levels value.toRaw).map some := by
  cases value with
  | null => exact absurd rfl hnull
  | bool _ | number _ | string _ | array _ | object _ => rfl

theorem mapM_itemsToRaw {decoder : Decoder α} {f : β → Json} {g : β → α} {parts : List β}
    (h : ∀ part ∈ parts, decoder levels (f part).toRaw = some (g part)) :
    (itemsToRaw (parts.map f)).mapM (decoder levels) = some (parts.map g) := by
  induction parts with
  | nil => rfl
  | cons part parts ih =>
      rw [List.forall_mem_cons] at h
      simp [itemsToRaw, List.mapM_cons, h.1, ih h.2]

/-- Equal parts are decoded one by one, one level further in. -/
theorem list_toRaw {decoder : Decoder α} {f : β → Json} {g : β → α} {parts : List β}
    (hdepth : (Json.array (parts.map f)).depth ≤ levels)
    (h : ∀ part ∈ parts, ∀ inner, inner < levels → (f part).depth ≤ inner →
      decoder inner (f part).toRaw = some (g part)) :
    list decoder levels (Json.array (parts.map f)).toRaw = some (parts.map g) := by
  rw [depth] at hdepth
  obtain ⟨inner, rfl⟩ : ∃ inner, levels = inner + 1 := ⟨levels - 1, by omega⟩
  rw [toRaw, list]
  apply mapM_itemsToRaw
  intro part hpart
  have := depth_le_itemsDepth (List.mem_map_of_mem (f := f) hpart)
  exact h part hpart inner (by omega) (by omega)

theorem mapM_membersToRaw {entries : Entries String Json}
    {f : Option String × Raw → Option (String × Json)}
    (h : ∀ entry ∈ entries, f (some entry.1, entry.2.toRaw) = some entry) :
    (membersToRaw entries).mapM f = some entries := by
  induction entries with
  | nil => rfl
  | cons entry entries ih =>
      rw [List.forall_mem_cons] at h
      rw [membersToRaw, List.mapM_cons, h.1, ih h.2]
      rfl

theorem dictionary_toRaw {entries : Entries String Json}
    (hkeys : (Entries.keys entries).Pairwise (· < ·))
    (hproper : ∀ entry ∈ entries, entry.2.Proper)
    (hdepth : (Json.ofEntries entries).depth ≤ levels) :
    dictionary any levels (Json.ofEntries entries).toRaw = some entries := by
  rw [ofEntries, depth] at hdepth
  obtain ⟨inner, rfl⟩ : ∃ inner, levels = inner + 1 := ⟨levels - 1, by omega⟩
  have hinner : ∀ entry ∈ entries, any inner entry.2.toRaw = some entry.2 := by
    intro entry hentry
    have := depth_le_membersDepth hentry
    exact any_toRaw (hproper entry hentry) (by omega)
  rw [ofEntries, toRaw, dictionary, mapM_membersToRaw fun entry hentry => by
    simp [hinner entry hentry]]
  simp [Entries.ofList_eq_self hkeys]

theorem membersToRaw_eq_map (members : List (String × Json)) :
    membersToRaw members = members.map fun member => (some member.1, member.2.toRaw) := by
  induction members with
  | nil => rfl
  | cons member members ih => rw [membersToRaw, ih, List.map_cons]

theorem member?_membersToRaw (name : String) (members : List (String × Json)) :
    member? name (membersToRaw members) = (Entries.find? name members).map toRaw := by
  induction members with
  | nil => rfl
  | cons member members ih =>
      obtain ⟨key, value⟩ := member
      rw [membersToRaw, Entries.find?]
      by_cases hkey : key = name
      · simp [member?, hkey]
      · have hskip : member? name ((some key, value.toRaw) :: membersToRaw members) =
            member? name (membersToRaw members) := by
          simp [member?, hkey]
        rw [hskip, ih, if_neg hkey]

theorem occurrences_membersToRaw (name : String) (members : List (String × Json)) :
    occurrences name (membersToRaw members) = (Entries.keys members).count name := by
  induction members with
  | nil => rfl
  | cons member members ih =>
      obtain ⟨key, value⟩ := member
      unfold occurrences at ih
      simp [occurrences, membersToRaw, Entries.keys, List.countP_cons, List.count_cons, ih]

/-- The parts of a record whose keys are distinct are the values of its fields, and each of them is
one level further in. -/
theorem exists_fields_toRaw {members : List (String × Json)}
    (hdepth : (Json.object members).depth ≤ levels) (hnodup : (Entries.keys members).Nodup) :
    ∃ inner, levels = inner + 1 ∧ (∀ member ∈ members, member.2.depth ≤ inner) ∧
      ∀ names, fields names levels (Json.object members).toRaw =
        some ⟨inner, names.map fun name => (Entries.find? name members).map toRaw⟩ := by
  rw [depth] at hdepth
  obtain ⟨inner, rfl⟩ : ∃ inner, levels = inner + 1 := ⟨levels - 1, by omega⟩
  refine ⟨inner, rfl, ?_, ?_⟩
  · intro member hmember
    have := depth_le_membersDepth hmember
    omega
  · intro names
    have hkeys : (membersToRaw members).all (fun member => member.1.isSome) = true := by
      rw [membersToRaw_eq_map, List.all_map, List.all_eq_true]
      intro member _
      rfl
    have honce : names.all (fun name => occurrences name (membersToRaw members) ≤ 1) = true := by
      rw [List.all_eq_true]
      intro name _
      rw [occurrences_membersToRaw, decide_eq_true_eq]
      exact List.nodup_iff_count_le_one.mp hnodup name
    rw [toRaw, fields, hkeys, honce]
    simp [member?_membersToRaw]

end Decoder

end Orchestration.Json
