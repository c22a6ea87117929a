import Mathlib.Data.List.Forall2
import Orchestration.Proofs.Scenario.Resolution
import Orchestration.Scenario.Describe

namespace Orchestration

namespace ParameterValue

/-- The reference stands in the value, at any depth of lists and maps. -/
inductive Mentions : ParameterValue → ValueReference → Prop
  | argument (ref : ArgumentRef) : Mentions (.argument ref) (.argument ref)
  | constant (ref : ConstantRef) : Mentions (.constant ref) (.constant ref)
  | function (ref : Reference) : Mentions (.function ref) (.function ref)
  | item {items : List ParameterValue} {item : ParameterValue} {r : ValueReference}
      (hitem : item ∈ items) (h : Mentions item r) : Mentions (.list items) r
  | entry {entries : List (String × ParameterValue)} {key : String} {value : ParameterValue}
      {r : ValueReference} (hentry : (key, value) ∈ entries) (h : Mentions value r) :
      Mentions (.map entries) r

theorem mem_itemReferences {r : ValueReference} {items : List ParameterValue} :
    r ∈ itemReferences items ↔ ∃ item ∈ items, r ∈ item.references := by
  induction items with
  | nil => simp [itemReferences]
  | cons item items ih => simp [itemReferences, ih]

theorem mem_entryReferences {r : ValueReference} {entries : List (String × ParameterValue)} :
    r ∈ entryReferences entries ↔ ∃ entry ∈ entries, r ∈ entry.2.references := by
  induction entries with
  | nil => simp [entryReferences]
  | cons entry entries ih => simp [entryReferences, ih]

theorem Mentions.mem_references {value : ParameterValue} {r : ValueReference}
    (h : value.Mentions r) : r ∈ value.references := by
  induction h with
  | argument _ | constant _ | function _ => exact List.mem_singleton_self _
  | item hitem _ ih => exact mem_itemReferences.mpr ⟨_, hitem, ih⟩
  | entry hentry _ ih => exact mem_entryReferences.mpr ⟨_, hentry, ih⟩

mutual

theorem mentions_of_mem_references {r : ValueReference} (value : ParameterValue)
    (h : r ∈ value.references) : value.Mentions r := by
  cases value with
  | literal value => cases h
  | argument ref => exact List.mem_singleton.mp h ▸ .argument ref
  | constant ref => exact List.mem_singleton.mp h ▸ .constant ref
  | function ref => exact List.mem_singleton.mp h ▸ .function ref
  | list items =>
      obtain ⟨item, hitem, hmentions⟩ := exists_item_mentions items h
      exact .item hitem hmentions
  | map entries =>
      obtain ⟨entry, hentry, hmentions⟩ := exists_entry_mentions entries h
      exact .entry hentry hmentions

theorem exists_item_mentions {r : ValueReference} (items : List ParameterValue)
    (h : r ∈ itemReferences items) : ∃ item ∈ items, item.Mentions r := by
  cases items with
  | nil => cases h
  | cons item items =>
      rcases List.mem_append.mp h with h | h
      · exact ⟨item, List.mem_cons_self, mentions_of_mem_references item h⟩
      · obtain ⟨found, hfound, hmentions⟩ := exists_item_mentions items h
        exact ⟨found, List.mem_cons_of_mem _ hfound, hmentions⟩

theorem exists_entry_mentions {r : ValueReference} (entries : List (String × ParameterValue))
    (h : r ∈ entryReferences entries) : ∃ entry ∈ entries, entry.2.Mentions r := by
  cases entries with
  | nil => cases h
  | cons entry entries =>
      obtain ⟨key, value⟩ := entry
      rcases List.mem_append.mp h with h | h
      · exact ⟨(key, value), List.mem_cons_self, mentions_of_mem_references value h⟩
      · obtain ⟨found, hfound, hmentions⟩ := exists_entry_mentions entries h
        exact ⟨found, List.mem_cons_of_mem _ hfound, hmentions⟩

end

end ParameterValue

mutual

/-- The value written out: literals stay, an argument is its placeholder, a constant is the value of
the constant with its name, and lists and maps keep their shape. -/
inductive ValueWritten (constants : List Constant) : ParameterValue → Json → Prop
  | literal (value : Json) : ValueWritten constants (.literal value) value
  | argument (ref : ArgumentRef) : ValueWritten constants (.argument ref) (.string ref.placeholder)
  | constant {ref : ConstantRef} {c : Constant} (hc : c ∈ constants) (hname : c.name = ref.name) :
      ValueWritten constants (.constant ref) c.value
  | function (ref : Reference) : ValueWritten constants (.function ref) ref.target.toJson
  | list {items : List ParameterValue} {values : List Json}
      (h : List.Forall₂ (ValueWritten constants) items values) :
      ValueWritten constants (.list items) (.array values)
  | map {entries : List (String × ParameterValue)} {members : List (String × Json)}
      (h : EntriesWritten constants entries members) :
      ValueWritten constants (.map entries) (.ofEntries members)

inductive EntriesWritten (constants : List Constant) :
    List (String × ParameterValue) → List (String × Json) → Prop
  | nil : EntriesWritten constants [] []
  | cons {key : String} {value : ParameterValue} {json : Json}
      {entries : List (String × ParameterValue)} {members : List (String × Json)}
      (h : ValueWritten constants value json) (hrest : EntriesWritten constants entries members) :
      EntriesWritten constants ((key, value) :: entries) ((key, json) :: members)

end

theorem EntriesWritten.keys {constants : List Constant} {entries : Entries String ParameterValue} :
    ∀ {members : Entries String Json}, EntriesWritten constants entries members →
      Entries.keys members = Entries.keys entries := by
  induction entries with
  | nil =>
      rintro _ ⟨⟩
      rfl
  | cons entry entries ih =>
      rintro _ (_ | ⟨-, hrest⟩)
      simpa [Entries.keys] using ih hrest

theorem ParameterTable.constantValue?_of_isSome {t : ParameterTable} {ref : ConstantRef}
    (hscope : ref.scope = t.scope) (hname : (t.constant? ref.name).isSome) :
    ∃ c ∈ t.constants, c.name = ref.name ∧ t.constantValue? ref = some c.value := by
  obtain ⟨c, hc⟩ := Option.isSome_iff_exists.mp hname
  refine ⟨c, List.mem_of_find?_eq_some hc, ?_, ?_⟩
  · simpa using List.find?_some hc
  · simp [ParameterTable.constantValue?, hscope, hc]

namespace Scenario

open ParameterValue

variable {s : Scenario}

/-- Every constant that the value refers to is there. -/
def HoldsConstants (s : Scenario) (value : ParameterValue) : Prop :=
  ∀ ref, .constant ref ∈ value.references → s.Holds (.constant ref)

theorem HoldsAll.holdsConstants {value : ParameterValue} (h : s.HoldsAll value) :
    s.HoldsConstants value :=
  fun ref href => h (.constant ref) href

mutual

/-- Only its constants can keep a value from being written out. -/
theorem exists_resolveValue (value : ParameterValue) (h : s.HoldsConstants value) :
    ∃ json, s.resolveValue value = .ok json ∧
      ValueWritten s.parameters.constants value json := by
  cases value with
  | literal value => exact ⟨value, rfl, .literal value⟩
  | argument ref => exact ⟨_, rfl, .argument ref⟩
  | constant ref =>
      obtain ⟨hscope, hname⟩ := h ref (List.mem_singleton_self _)
      obtain ⟨c, hc, hcname, hvalue⟩ := ParameterTable.constantValue?_of_isSome hscope hname
      exact ⟨c.value, by simp [resolveValue, resolveWith, hvalue], .constant hc hcname⟩
  | function ref => exact ⟨_, rfl, .function ref⟩
  | list items =>
      obtain ⟨values, hvalues, hwritten⟩ := exists_itemsWritten items h
      refine ⟨.array values, ?_, .list hwritten⟩
      simp [resolveValue, resolveWith, hvalues, bind, Except.bind]
  | map entries =>
      obtain ⟨members, hmembers, hwritten⟩ := exists_entriesWritten entries h
      refine ⟨.ofEntries members, ?_, .map hwritten⟩
      simp [resolveValue, resolveWith, hmembers, bind, Except.bind]

private theorem exists_itemsWritten (items : List ParameterValue)
    (h : ∀ ref, .constant ref ∈ itemReferences items → s.Holds (.constant ref)) :
    ∃ values, resolveItems s (fun ref => return ref.unbound) items = .ok values ∧
      List.Forall₂ (ValueWritten s.parameters.constants) items values := by
  cases items with
  | nil => exact ⟨[], rfl, .nil⟩
  | cons item items =>
      obtain ⟨value, hvalue, hwritten⟩ := exists_resolveValue item fun ref href =>
        h ref (List.mem_append_left _ href)
      obtain ⟨values, hvalues, hrest⟩ := exists_itemsWritten items fun ref href =>
        h ref (List.mem_append_right _ href)
      refine ⟨value :: values, ?_, .cons hwritten hrest⟩
      rw [resolveValue] at hvalue
      simp [resolveItems, hvalue, hvalues, bind, Except.bind]

private theorem exists_entriesWritten (entries : List (String × ParameterValue))
    (h : ∀ ref, .constant ref ∈ entryReferences entries → s.Holds (.constant ref)) :
    ∃ members, resolveEntries s (fun ref => return ref.unbound) entries = .ok members ∧
      EntriesWritten s.parameters.constants entries members := by
  cases entries with
  | nil => exact ⟨[], rfl, .nil⟩
  | cons entry entries =>
      obtain ⟨key, value⟩ := entry
      obtain ⟨json, hjson, hwritten⟩ := exists_resolveValue value fun ref href =>
        h ref (List.mem_append_left _ href)
      obtain ⟨members, hmembers, hrest⟩ := exists_entriesWritten entries fun ref href =>
        h ref (List.mem_append_right _ href)
      refine ⟨(key, json) :: members, ?_, .cons hwritten hrest⟩
      rw [resolveValue] at hjson
      simp [resolveEntries, hjson, hmembers, bind, Except.bind]

end

theorem exists_resolveValues {entries : Entries String ParameterValue}
    (h : ∀ entry ∈ entries, s.HoldsAll entry.2) :
    ∃ members, s.resolveValues entries = .ok members ∧
      EntriesWritten s.parameters.constants entries members := by
  apply exists_entriesWritten
  intro ref href
  obtain ⟨entry, hentry, hmem⟩ := mem_entryReferences.mp href
  exact h entry hentry _ hmem

end Scenario

end Orchestration
