import Mathlib.Data.List.Nodup
import Orchestration.Composer
import Orchestration.Proofs.Outcome
import Orchestration.Traffic.Record

namespace Orchestration

theorem checkDeclaration_eq_ok_iff {isDeclared : Nat → Bool} {id : Nat}
    {launched finished : List Nat} :
    checkDeclaration isDeclared id launched finished = .ok () ↔
      isDeclared id = false ∧
        ∀ dependency ∈ launched ++ finished, dependency < id ∧ isDeclared dependency = true := by
  rw [checkDeclaration]
  cases hid : isDeclared id with
  | true => simp
  | false =>
      simp only [Bool.false_eq_true, ↓reduceIte, true_and]
      split
      next dependency hfind =>
        have hoffends := List.find?_some hfind
        simp only [Outcome.throw_ne_ok, false_iff]
        intro hall
        obtain ⟨hlt, hdeclared⟩ := hall dependency (List.mem_of_find?_eq_some hfind)
        simp [hdeclared, Nat.not_le_of_lt hlt] at hoffends
      next hfind =>
        simp only [Outcome.pure_eq_ok_iff, true_iff]
        intro dependency hmem
        simpa using List.find?_eq_none.mp hfind dependency hmem

namespace TrafficRecord

/-- The ids that the traffic waits for. -/
def waits (r : TrafficRecord) : List Nat := r.waitLaunched ++ r.waitFinished

theorem waits_eq_nil_iff {r : TrafficRecord} : r.waits = [] ↔ r.hasDependencies = false := by
  simp [waits, hasDependencies]

end TrafficRecord

structure WellDeclared (records : List TrafficRecord) : Prop where
  ids : (records.map TrafficRecord.id).Nodup
  waits : ∀ earlier r later, records = earlier ++ r :: later →
    ∀ id ∈ r.waits, id < r.id ∧ id ∈ earlier.map TrafficRecord.id

namespace WellDeclared

variable {records : List TrafficRecord}

theorem nil : WellDeclared [] := by
  constructor
  · exact List.nodup_nil
  · intro earlier r later h
    simp at h

theorem snoc (h : WellDeclared records) {r : TrafficRecord}
    (hid : r.id ∉ records.map TrafficRecord.id)
    (hwaits : ∀ id ∈ r.waits, id < r.id ∧ id ∈ records.map TrafficRecord.id) :
    WellDeclared (records ++ [r]) := by
  constructor
  · rw [List.map_append, List.nodup_append]
    refine ⟨h.ids, List.nodup_singleton _, ?_⟩
    rintro id hmem _ hsingle rfl
    exact hid (List.mem_singleton.mp hsingle ▸ hmem)
  · intro earlier other later hsplit id hmem
    -- The chosen record is the new one, or it stands among the old ones.
    rcases List.eq_nil_or_concat' later with rfl | ⟨front, last, rfl⟩
    · obtain ⟨rfl, hlast⟩ := List.append_inj' hsplit rfl
      obtain rfl : r = other := by simpa using hlast
      exact hwaits id hmem
    · rw [← List.cons_append, ← List.append_assoc] at hsplit
      exact h.waits earlier other front (List.append_inj' hsplit rfl).1 id hmem

/-- What a traffic waits for stands before it in the list. -/
theorem exists_lt (h : WellDeclared records) {i : Nat} {r : TrafficRecord}
    (hr : records[i]? = some r) {id : Nat} (hid : id ∈ r.waits) :
    ∃ k < i, ∃ other, records[k]? = some other ∧ other.id = id := by
  obtain ⟨hi, rfl⟩ := List.getElem?_eq_some_iff.mp hr
  have hsplit : records = records.take i ++ records[i] :: records.drop (i + 1) := by
    rw [← List.drop_eq_getElem_cons hi, List.take_append_drop]
  obtain ⟨other, hother, hid⟩ := List.mem_map.mp (h.waits _ _ _ hsplit id hid).2
  obtain ⟨k, hk, hother⟩ := List.mem_take_iff_getElem.mp hother
  obtain ⟨hki, hlength⟩ := Nat.lt_min.mp hk
  exact ⟨k, hki, other, List.getElem?_eq_some_iff.mpr ⟨hlength, hother⟩, hid⟩

end WellDeclared

end Orchestration
