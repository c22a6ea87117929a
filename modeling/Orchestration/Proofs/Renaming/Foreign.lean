import Orchestration.Proofs.Renaming.Steps

namespace Orchestration

section Cites

variable (scope : Scope)

/-- A reference of the scope stands in the value, at any depth. -/
def ParameterValue.Cites (v : ParameterValue) : Prop := ∃ r, v.Mentions r ∧ r.scope = scope

def WaitClause.Cites (w : WaitClause) : Prop := ∃ r ∈ w.references, r.scope = scope

def Endpoint.Cites (e : Endpoint) : Prop :=
  e.address.Cites scope ∨ ∃ port, e.port = some port ∧ port.Cites scope

def JobLaunch.Cites (j : JobLaunch) : Prop :=
  (∃ entry ∈ j.arguments, entry.2.Cites scope) ∨ ∃ e, j.endpoint = some e ∧ e.Cites scope

/-- What stands in a scenario that is started does not count, for it is in terms of its own. -/
def Payload.Cites : Payload → Prop
  | .startJob job => job.Cites scope
  | .stopJobs targets => ∃ r ∈ targets, r.scope = scope
  | .startScenario _ bindings => ∃ binding ∈ bindings, binding.2.Cites scope
  | .stopScenario target => target.scope = scope

/-- The call is given a handle or a reference of the scope. -/
def Call.Cites : Call → Prop
  | .addArgument _ _ _ | .addConstant _ _ | .copy _ => False
  | .addFunction payload wait => payload.Cites scope ∨ wait.Cites scope
  | .startJob job wait => job.Cites scope ∨ wait.Cites scope
  | .stopJobs targets wait => (∃ h ∈ targets, h.scope = scope) ∨ wait.Cites scope
  | .startScenario _ bindings wait =>
    (∃ binding ∈ bindings, binding.2.Cites scope) ∨ wait.Cites scope
  | .stopScenario target wait => target.scope = scope ∨ wait.Cites scope
  | .setWait handle wait => handle.scope = scope ∨ wait.Cites scope

/-- The question goes by way of a host of the scope. -/
def Query.Cites : Query → Prop
  | .embedded host | .nested host _ | .nestedHandle host _ | .inside host _ => host.scope = scope
  | _ => False

def Step.Cites : Step → Prop
  | .call c => c.Cites scope
  | .ask query => query.Cites scope

end Cites

namespace Scenario

variable {s : Scenario} {scope : Scope}

theorem HoldsAll.scope_eq {v : ParameterValue} (h : s.HoldsAll v)
    (htable : s.parameters.scope = s.scope) (hcites : v.Cites scope) : scope = s.scope := by
  obtain ⟨r, hr, rfl⟩ := hcites
  exact (h r hr.mem_references).scope_eq htable

theorem scope_eq_of_waits {wait : WaitClause} (h : ∀ r ∈ wait.references, s.Resolves r)
    (hcites : wait.Cites scope) : scope = s.scope := by
  obtain ⟨r, hr, rfl⟩ := hcites
  obtain ⟨f, hf⟩ := h r hr
  exact hf.1

theorem NamesOwn.scope_eq {kind : FunctionKind} {r : Reference} (h : s.NamesOwn kind r) :
    r.scope = s.scope := by
  obtain ⟨-, f, hf, -⟩ := h
  exact hf.1

theorem Admits.scope_eq {p : Payload} (h : s.Admits p) (htable : s.parameters.scope = s.scope)
    (hcites : p.Cites scope) : scope = s.scope := by
  cases p with
  | startJob job =>
      have hvalue : ∀ v ∈ job.values, v.Cites scope → scope = s.scope :=
        fun v hv => (h.2 v hv).scope_eq htable
      obtain ⟨entry, hentry, hcites⟩ | ⟨e, he, hcites⟩ := hcites
      · exact hvalue entry.2 (List.mem_append_left _ (List.mem_map_of_mem hentry)) hcites
      · have hendpoint : ∀ v ∈ e.values, v ∈ job.values :=
          fun v hv => List.mem_append_right _ (by simpa [he] using hv)
        obtain hcites | ⟨port, hport, hcites⟩ := hcites
        · exact hvalue e.address (hendpoint _ (by simp [Endpoint.values])) hcites
        · exact hvalue port (hendpoint _ (by simp [Endpoint.values, hport])) hcites
  | stopJobs targets =>
      obtain ⟨r, hr, rfl⟩ := hcites
      exact (h r hr).scope_eq
  | startScenario inner bindings =>
      obtain ⟨binding, hbinding, hcites⟩ := hcites
      exact (h.held binding hbinding).scope_eq htable hcites
  | stopScenario target =>
      subst hcites
      exact NamesOwn.scope_eq h

theorem scope_eq_of_addFunction {payload : Payload} {wait : WaitClause} {added : Handle × Scenario}
    (htable : s.parameters.scope = s.scope) (h : s.addFunction payload wait = .ok added)
    (hcites : payload.Cites scope ∨ wait.Cites scope) : scope = s.scope := by
  obtain ⟨hwait, hadmits, -, -⟩ := addFunction_eq_ok_iff.mp h
  rcases hcites with hcites | hcites
  · exact hadmits.scope_eq htable hcites
  · exact scope_eq_of_waits hwait hcites

end Scenario

open Scenario

variable {s : Scenario} {scope : Scope}

/-- What a call is given was given out by the scenario that takes the call. -/
theorem Call.scope_eq_of_perform {call : Call} {result : Reply × Scenario}
    (htable : s.parameters.scope = s.scope) (h : call.perform s = .ok result)
    (hcites : call.Cites scope) : scope = s.scope := by
  cases call with
  | addArgument _ _ _ | addConstant _ _ | copy _ => exact hcites.elim
  | addFunction payload wait | startJob job wait | startScenario inner bindings wait =>
      obtain ⟨added, hadd, -⟩ := Outcome.bind_eq_ok_iff.mp h
      exact scope_eq_of_addFunction htable hadd hcites
  | stopScenario target wait =>
      obtain ⟨added, hadd, -⟩ := Outcome.bind_eq_ok_iff.mp h
      exact scope_eq_of_addFunction htable hadd hcites
  | stopJobs targets wait =>
      obtain ⟨added, hadd, -⟩ := Outcome.bind_eq_ok_iff.mp h
      refine scope_eq_of_addFunction htable hadd (hcites.imp_left ?_)
      rintro ⟨target, htarget, rfl⟩
      exact ⟨target.reference, List.mem_map_of_mem htarget, rfl⟩
  | setWait handle wait =>
      obtain ⟨t, hset, -⟩ := Outcome.bind_eq_ok_iff.mp h
      obtain ⟨⟨hscope, -⟩, hwait, -, -⟩ := setWait_eq_ok_iff.mp hset
      rcases hcites with rfl | hcites
      · exact hscope
      · exact scope_eq_of_waits (fun r hr => (hwait r hr).1) hcites

theorem Query.scope_eq_of_ask {query : Query} {answer : Answer} (h : query.ask s = .ok answer)
    (hcites : query.Cites scope) : scope = s.scope := by
  have hembedded : ∀ {host : Handle} {inner : Scenario}, s.embedded host = .ok inner →
      host.scope = s.scope := by
    intro host inner hinner
    obtain ⟨hhost, -⟩ := Outcome.seq_eq_ok_iff.mp hinner
    exact (checkHandle_eq_ok_iff.mp hhost).1
  cases query with
  | embedded host =>
      obtain ⟨inner, hinner, -⟩ := Outcome.bind_eq_ok_iff.mp h
      exact hcites ▸ hembedded hinner
  | nested host id =>
      obtain ⟨r, hr, -⟩ := Outcome.bind_eq_ok_iff.mp h
      obtain ⟨hhost, -⟩ := Outcome.seq_eq_ok_iff.mp hr
      exact hcites ▸ (checkHandle_eq_ok_iff.mp hhost).1
  | nestedHandle host inner =>
      obtain ⟨r, hr, -⟩ := Outcome.bind_eq_ok_iff.mp h
      obtain ⟨embedded, hinner, -⟩ := Outcome.bind_eq_ok_iff.mp hr
      exact hcites ▸ hembedded hinner
  | inside host query =>
      obtain ⟨inner, hinner, -⟩ := Outcome.bind_eq_ok_iff.mp h
      exact hcites ▸ hembedded hinner
  | _ => exact hcites.elim

/-- The step is refused, and the scenario is the same after it. -/
def Step.Refused (s : Scenario) (step : Step) : Prop :=
  (∃ failure, step.answer s = .error failure) ∧ step.next s = s

theorem Step.refused_of_cites {step : Step} (htable : s.parameters.scope = s.scope)
    (hforeign : scope ≠ s.scope) (hcites : step.Cites scope) : step.Refused s := by
  cases step with
  | call c =>
      cases hperform : c.perform s with
      | ok result => exact absurd (c.scope_eq_of_perform htable hperform hcites) hforeign
      | error failure =>
          refine ⟨⟨failure, ?_⟩, ?_⟩
          · rw [answer, hperform]
            rfl
          · rw [next, after, hperform]
  | ask query =>
      refine ⟨?_, rfl⟩
      cases hask : query.ask s with
      | ok answer => exact absurd (query.scope_eq_of_ask hask hcites) hforeign
      | error failure => exact ⟨failure, hask⟩

end Orchestration
