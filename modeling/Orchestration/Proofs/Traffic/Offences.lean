import Orchestration.Proofs.Traffic.Declarations

namespace Orchestration.TrafficMix

/-- The traffic waits for the servers alone, and the sum of its delay and their warmup does not fit
in the seconds of a duration. -/
def Overflows (records : List TrafficRecord) (r : TrafficRecord) : Prop :=
  (∃ other ∈ records, other.kind = .dash ∨ other.kind = .webBrowsing) ∧
    r.hasDependencies = false ∧ Text.max64 - 5 < r.delay

instance (records : List TrafficRecord) (r : TrafficRecord) : Decidable (Overflows records r) :=
  inferInstanceAs (Decidable (_ ∧ _ ∧ _))

/-- What is wrong with a traffic that comes after others. -/
def offence? (records earlier : List TrafficRecord) (r : TrafficRecord) : Option Failure :=
  if Overflows records r then some .durationOverflow
  else if r.id ∈ earlier.map TrafficRecord.id then some (.duplicateId r.id)
  else (r.waits.find? fun id => ¬ (id < r.id ∧ id ∈ earlier.map TrafficRecord.id)).map
    (.forwardReference r.id)

/-- The first offence among the traffics that come after the earlier ones. -/
def offenceAfter? (records earlier : List TrafficRecord) : List TrafficRecord → Option Failure
  | [] => none
  | r :: later => (offence? records earlier r).or (offenceAfter? records (earlier ++ [r]) later)

def firstOffence? (records : List TrafficRecord) : Option Failure :=
  offenceAfter? records [] records

theorem checkDeclaration_eq {records earlier : List TrafficRecord} {r : TrafficRecord}
    {isDeclared : Nat → Bool} (hoverflow : ¬ Overflows records r)
    (hdeclared : ∀ id, isDeclared id = true ↔ id ∈ earlier.map TrafficRecord.id) :
    checkDeclaration isDeclared r.id r.waitLaunched r.waitFinished =
      match offence? records earlier r with
      | some failure => .error failure
      | none => .ok () := by
  have hoffends : (fun id => decide ¬ (id < r.id ∧ id ∈ earlier.map TrafficRecord.id)) =
      fun id => r.id ≤ id || !isDeclared id := by
    funext id
    rw [Bool.eq_iff_iff]
    simp only [decide_eq_true_eq, ← hdeclared, not_and_or, Nat.not_lt, Bool.or_eq_true,
      Bool.not_eq_true, Bool.not_eq_true']
  rw [checkDeclaration, offence?, if_neg hoverflow, hoffends, TrafficRecord.waits]
  by_cases hid : isDeclared r.id = true
  · rw [if_pos hid, if_pos ((hdeclared r.id).mp hid)]
    rfl
  · rw [if_neg hid, if_neg fun hmem => hid ((hdeclared r.id).mpr hmem)]
    cases (r.waitLaunched ++ r.waitFinished).find? fun id => r.id ≤ id || !isDeclared id <;> rfl

/-- If its delay fits, a traffic offends exactly where its declaration is refused. -/
theorem checkDeclaration_eq_error_iff {records earlier : List TrafficRecord} {r : TrafficRecord}
    {isDeclared : Nat → Bool} (hoverflow : ¬ Overflows records r)
    (hdeclared : ∀ id, isDeclared id = true ↔ id ∈ earlier.map TrafficRecord.id)
    {failure : Failure} :
    checkDeclaration isDeclared r.id r.waitLaunched r.waitFinished = .error failure ↔
      offence? records earlier r = some failure := by
  rw [checkDeclaration_eq hoverflow hdeclared]
  cases offence? records earlier r <;> simp

section WellDeclared

variable {records : List TrafficRecord}

theorem offence?_of_waits {earlier : List TrafficRecord} {r : TrafficRecord}
    (hid : r.id ∉ earlier.map TrafficRecord.id)
    (hwaits : ∀ id ∈ r.waits, id < r.id ∧ id ∈ earlier.map TrafficRecord.id) :
    offence? records earlier r = if Overflows records r then some .durationOverflow else none := by
  have hfind : (r.waits.find? fun id => ¬ (id < r.id ∧ id ∈ earlier.map TrafficRecord.id)) =
      none := by
    rw [List.find?_eq_none]
    intro id hmem
    simpa using hwaits id hmem
  rw [offence?, if_neg hid, hfind]
  rfl

theorem offenceAfter?_of_wellDeclared (h : WellDeclared records)
    {earlier later : List TrafficRecord} (hsplit : records = earlier ++ later) :
    offenceAfter? records earlier later =
      if ∃ r ∈ later, Overflows records r then some .durationOverflow else none := by
  induction later generalizing earlier with
  | nil => simp [offenceAfter?]
  | cons r later ih =>
      have hid : r.id ∉ earlier.map TrafficRecord.id := by
        have hids := h.ids
        rw [hsplit, List.map_append, List.map_cons, List.nodup_middle, List.nodup_cons] at hids
        exact fun hmem => hids.1 (List.mem_append_left _ hmem)
      rw [offenceAfter?, offence?_of_waits hid (h.waits earlier r later hsplit),
        ih (by simpa using hsplit)]
      by_cases hoverflow : Overflows records r <;> simp [hoverflow]

theorem firstOffence?_of_wellDeclared (h : WellDeclared records) :
    firstOffence? records =
      if ∃ r ∈ records, Overflows records r then some .durationOverflow else none :=
  offenceAfter?_of_wellDeclared h rfl

end WellDeclared

end Orchestration.TrafficMix
