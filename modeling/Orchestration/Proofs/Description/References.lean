import Orchestration.Proofs.Scenario.Outline

namespace Orchestration

def PayloadRecord.kind : PayloadRecord → FunctionKind
  | .startJob _ _ _ _ => .startJob
  | .stopJobs _ => .stopJobs
  | .startScenario _ _ _ => .startScenario
  | .stopScenario _ => .stopScenario

namespace Description

/-- A function of the description itself has the id. -/
def HasFunction (d : Description) (id : Nat) : Prop := ∃ f ∈ d.functions, f.id = id

/-- The target is a function of the description or, under a host, one of the description that the
host starts. -/
def HasTarget (d : Description) : Target → Prop
  | .own id => d.HasFunction id
  | .nested host id => ∃ f ∈ d.functions, f.id = host ∧
      ∃ name inner arguments, f.payload = .startScenario name inner arguments ∧
        inner.HasFunction id

/-- The target is a function of the description itself, with a payload of the kind. -/
def HasOwnTarget (d : Description) (kind : FunctionKind) (target : Target) : Prop :=
  ∃ f ∈ d.functions, target = .own f.id ∧ f.payload.kind = kind

/-- One level of a description names only functions that it has: ids count the functions, kinds are
those of the payloads, whatever is waited for is there, and what is stopped was started there. -/
structure ReferencesClosed (d : Description) : Prop where
  ids : ∀ (i : Nat) (h : i < d.functions.length), d.functions[i].id = i
  kinds : ∀ f ∈ d.functions, f.kind = f.payload.kind
  waitFinished : ∀ f ∈ d.functions, ∀ target ∈ f.waitFinished, d.HasTarget target
  waitLaunched : ∀ f ∈ d.functions, ∀ target ∈ f.waitLaunched, d.HasTarget target
  stopJobs : ∀ f ∈ d.functions, ∀ targets, f.payload = .stopJobs targets →
    ∀ target ∈ targets, d.HasOwnTarget .startJob target
  stopScenario : ∀ f ∈ d.functions, ∀ target, f.payload = .stopScenario target →
    d.HasOwnTarget .startScenario target

end Description

theorem PayloadOutlined.kind_eq {owner : Scenario} {payload : Payload} {record : PayloadRecord}
    (h : PayloadOutlined owner payload record) : record.kind = payload.kind := by
  cases h <;> rfl

namespace Outlined

variable {s : Scenario} {d : Description}

theorem hasFunction (h : Outlined s d) {id : FunctionId} {f : ScenarioFunction}
    (hf : s.function? id = some f) : d.HasFunction id := by
  obtain ⟨hmem, hid⟩ := Scenario.mem_of_function? hf
  obtain ⟨r, hr, houtlined⟩ := exists_of_mem_left h.functions hmem
  exact ⟨r, hr, houtlined.id.trans hid⟩

/-- A reference that resolves in the scenario is written as a target of the description. -/
theorem hasTarget (h : Outlined s d) {r : Reference} (hr : s.Resolves r) :
    d.HasTarget r.target := by
  obtain ⟨scope, host, id⟩ := r
  cases host with
  | none =>
      obtain ⟨f, -, hf⟩ := hr
      exact h.hasFunction hf
  | some host =>
      obtain ⟨f, -, hostFunction, inner, bindings, hhost, hstarts, hf⟩ := hr
      obtain ⟨hmem, hid⟩ := Scenario.mem_of_function? hhost
      obtain ⟨record, hrecord, houtlined⟩ := exists_of_mem_left h.functions hmem
      refine ⟨record, hrecord, houtlined.id.trans hid, ?_⟩
      have hpayload := houtlined.payload
      rw [hstarts] at hpayload
      generalize record.payload = payload at hpayload
      cases hpayload with
      | startScenario hscenario _ =>
          exact ⟨_, _, _, rfl, (Scenario.outline_eq_ok_iff.mp hscenario).hasFunction hf⟩

theorem hasOwnTarget (h : Outlined s d) {kind : FunctionKind} {r : Reference}
    (hr : s.NamesOwn kind r) : d.HasOwnTarget kind r.target := by
  obtain ⟨scope, host, id⟩ := r
  obtain ⟨hhost, f, ⟨-, hf⟩, hkind⟩ := hr
  simp only at hhost
  subst hhost
  obtain ⟨hmem, hid⟩ := Scenario.mem_of_function? hf
  obtain ⟨record, hrecord, houtlined⟩ := exists_of_mem_left h.functions hmem
  refine ⟨record, hrecord, ?_, houtlined.payload.kind_eq.trans hkind⟩
  exact congrArg Target.own (houtlined.id.trans hid).symm

/-- One level: what an intact scenario refers to is there in its description. -/
theorem referencesClosed (h : Outlined s d) (hintact : s.Intact) : d.ReferencesClosed := by
  refine ⟨?_, ?_, ?_, ?_, ?_, ?_⟩
  · intro i hi
    have hlength := h.functions.length_eq
    have his : i < s.functions.length := hlength ▸ hi
    have hid : s.functions[i].id = i := by
      have hget : (s.functions.map ScenarioFunction.id)[i]? = some i := by
        rw [hintact.dense]
        exact List.getElem?_range his
      simpa [his] using hget
    exact (h.functions.get his hi).id.trans hid
  · intro r hr
    obtain ⟨f, -, houtlined⟩ := exists_of_mem_right h.functions hr
    exact houtlined.kind.trans houtlined.payload.kind_eq.symm
  · intro r hr target htarget
    obtain ⟨f, hf, houtlined⟩ := exists_of_mem_right h.functions hr
    rw [houtlined.waitFinished] at htarget
    obtain ⟨reference, hreference, rfl⟩ := List.mem_map.mp htarget
    exact h.hasTarget (hintact.waits f hf reference (List.mem_append_left _ hreference))
  · intro r hr target htarget
    obtain ⟨f, hf, houtlined⟩ := exists_of_mem_right h.functions hr
    rw [houtlined.waitLaunched] at htarget
    obtain ⟨reference, hreference, rfl⟩ := List.mem_map.mp htarget
    exact h.hasTarget (hintact.waits f hf reference (List.mem_append_right _ hreference))
  · intro r hr targets htargets target htarget
    obtain ⟨f, hf, houtlined⟩ := exists_of_mem_right h.functions hr
    have hadmits := hintact.payloads f hf
    have hpayload := houtlined.payload
    rw [htargets] at hpayload
    generalize f.payload = payload at hpayload hadmits
    cases hpayload with
    | stopJobs references =>
        obtain ⟨reference, hreference, rfl⟩ := List.mem_map.mp htarget
        exact h.hasOwnTarget (hadmits reference hreference)
  · intro r hr target htarget
    obtain ⟨f, hf, houtlined⟩ := exists_of_mem_right h.functions hr
    have hadmits := hintact.payloads f hf
    have hpayload := houtlined.payload
    rw [htarget] at hpayload
    generalize f.payload = payload at hpayload hadmits
    cases hpayload with
    | stopScenario reference => exact h.hasOwnTarget hadmits

end Outlined

theorem Outlined.starts {s : Scenario} {d inner : Description} (h : Outlined s d)
    (hstarts : d.Starts inner) : ∃ level, s.Starts level ∧ level.outline = .ok inner := by
  obtain ⟨r, hr, name, arguments, hpayload⟩ := hstarts
  obtain ⟨f, hf, houtlined⟩ := exists_of_mem_right h.functions hr
  have hrecord := houtlined.payload
  rw [hpayload] at hrecord
  cases hp : f.payload with
  | startScenario level bindings =>
      rw [hp] at hrecord
      cases hrecord with
      | startScenario hscenario _ => exact ⟨level, ⟨f, hf, bindings, hp⟩, hscenario⟩
  | startJob _ | stopJobs _ | stopScenario _ =>
      rw [hp] at hrecord
      cases hrecord

/-- What holds of the description of every level of a scenario holds everywhere in its
description. -/
theorem Scenario.Everywhere.outline {P : Scenario → Prop} {Q : Description → Prop} {s : Scenario}
    {d : Description} (h : s.Everywhere P) (hd : s.outline = .ok d)
    (hlevel : ∀ level description, P level → Outlined level description → Q description) :
    d.Everywhere Q := by
  induction h generalizing d with
  | intro here _ ih =>
      have houtlined := outline_eq_ok_iff.mp hd
      refine .intro (hlevel _ _ here houtlined) ?_
      intro inner hinner
      obtain ⟨level, hstarts, hinside⟩ := houtlined.starts hinner
      exact ih level hstarts hinside

/-- A scenario that is built by calls has a description, and at every depth of it every reference
names a function that is there. -/
theorem Scenario.Reachable.references_closed {s : Scenario} (h : s.Reachable) :
    ∃ d, s.describe = .ok d ∧ d.Everywhere Description.ReferencesClosed := by
  obtain ⟨d, hdescribe, houtline⟩ := h.exists_describe
  refine ⟨d, hdescribe, ?_⟩
  exact h.everywhere_intact.outline houtline fun _ _ hintact houtlined =>
    houtlined.referencesClosed hintact

theorem Scenario.manager_references_closed :
    ∃ d, manager.describe = .ok d ∧ d.Everywhere Description.ReferencesClosed :=
  Reachable.references_closed manager_reachable

end Orchestration
