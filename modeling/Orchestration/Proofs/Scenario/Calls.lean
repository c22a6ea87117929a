import Orchestration.Proofs.Scenario.Reachable

namespace Orchestration

namespace Call

/-- The function that a call is to add. -/
def added? : Call → Option (Payload × WaitClause)
  | .addFunction payload wait => some (payload, wait)
  | .startJob job wait => some (.startJob job, wait)
  | .stopJobs targets wait => some (.stopJobs (targets.map Handle.reference), wait)
  | .startScenario inner bindings wait => some (.startScenario inner bindings, wait)
  | .stopScenario target wait => some (.stopScenario target.reference, wait)
  | _ => none

theorem perform_of_added? {c : Call} {payload : Payload} {wait : WaitClause}
    (h : c.added? = some (payload, wait)) (s : Scenario) : c.perform s = (do
      let (handle, s) ← s.addFunction payload wait
      return (.function handle, s)) := by
  cases c <;> cases h <;> rfl

/-- A call is not refused: what it hands out, the scenario that the building goes on with, and what
it takes for that. -/
inductive Performs (s : Scenario) : Call → Reply → Scenario → Prop
  | argument {name description : String} {default : Option Json}
      (hname : name ∉ s.parameters.uses.map Prod.fst) :
      Performs s (.addArgument name description default) (.argument ⟨s.parameters.scope, name⟩)
        (s.withArgument ⟨name, description, default⟩)
  | constant {name : String} {value : Json} (hname : name ∉ s.parameters.uses.map Prod.fst) :
      Performs s (.addConstant name value) (.constant ⟨s.parameters.scope, name⟩)
        (s.withConstant ⟨name, value⟩)
  | function {c : Call} {payload : Payload} {wait : WaitClause}
      (hadded : c.added? = some (payload, wait)) (hwait : ∀ r ∈ wait.references, s.Resolves r)
      (hadmits : s.Admits payload) :
      Performs s c (.function ⟨s.scope, s.ids.next, payload.kind⟩) (s.withFunction payload wait)
  | rewired {handle : Handle} {wait : WaitClause} (hscope : handle.scope = s.scope)
      (hfunction : ∃ f, s.function? handle.id = some f)
      (hwait : ∀ r ∈ wait.references, s.Resolves r ∧ r.outerId ≠ handle.id)
      (hcycle : findCycle s.functions (some (handle.id, wait)) = none) :
      Performs s (.setWait handle wait) .nothing (s.rewired handle.id wait)
  | copied (scope : Scope) : Performs s (.copy scope) .nothing (s.copy scope)

theorem perform_eq_ok_iff {s t : Scenario} {c : Call} {reply : Reply} :
    c.perform s = .ok (reply, t) ↔ Performs s c reply t := by
  constructor
  · intro h
    cases hadded : c.added? with
    | some function =>
        obtain ⟨payload, wait⟩ := function
        rw [perform_of_added? hadded] at h
        obtain ⟨⟨handle, u⟩, hadd, heq⟩ := Outcome.bind_eq_ok_iff.mp h
        cases heq
        obtain ⟨hwait, hadmits, rfl, rfl⟩ := Scenario.addFunction_eq_ok_iff.mp hadd
        exact .function hadded hwait hadmits
    | none =>
        cases c with
        | addArgument name description default =>
            obtain ⟨⟨ref, u⟩, hadd, heq⟩ := Outcome.bind_eq_ok_iff.mp h
            cases heq
            obtain ⟨hname, rfl, rfl⟩ := Scenario.addArgument_eq_ok_iff.mp hadd
            exact .argument hname
        | addConstant name value =>
            obtain ⟨⟨ref, u⟩, hadd, heq⟩ := Outcome.bind_eq_ok_iff.mp h
            cases heq
            obtain ⟨hname, rfl, rfl⟩ := Scenario.addConstant_eq_ok_iff.mp hadd
            exact .constant hname
        | setWait handle wait =>
            obtain ⟨u, hset, heq⟩ := Outcome.bind_eq_ok_iff.mp h
            cases heq
            obtain ⟨⟨hscope, hfunction⟩, hwait, hcycle, rfl⟩ := Scenario.setWait_eq_ok_iff.mp hset
            exact .rewired hscope hfunction hwait hcycle
        | copy scope =>
            cases h
            exact .copied scope
        | _ => cases hadded
  · intro h
    cases h with
    | argument hname =>
        exact Outcome.bind_eq_ok_iff.mpr
          ⟨_, Scenario.addArgument_eq_ok_iff.mpr ⟨hname, rfl, rfl⟩, rfl⟩
    | constant hname =>
        exact Outcome.bind_eq_ok_iff.mpr
          ⟨_, Scenario.addConstant_eq_ok_iff.mpr ⟨hname, rfl, rfl⟩, rfl⟩
    | function hadded hwait hadmits =>
        rw [perform_of_added? hadded]
        exact Outcome.bind_eq_ok_iff.mpr
          ⟨_, Scenario.addFunction_eq_ok_iff.mpr ⟨hwait, hadmits, rfl, rfl⟩, rfl⟩
    | rewired hscope hfunction hwait hcycle =>
        exact Outcome.bind_eq_ok_iff.mpr
          ⟨_, Scenario.setWait_eq_ok_iff.mpr ⟨⟨hscope, hfunction⟩, hwait, hcycle, rfl⟩, rfl⟩
    | copied scope => rfl

/-- The building goes on with the scenario itself, not with a copy of it. -/
def InPlace (c : Call) : Prop := ∀ scope, c ≠ .copy scope

/-- The call replaces no clause. -/
def KeepsClauses (c : Call) : Prop := ∀ handle wait, c ≠ .setWait handle wait

end Call

namespace Scenario

variable {s t : Scenario} {c : Call} {reply : Reply}

theorem after_eq_or (s : Scenario) (c : Call) :
    s.after c = s ∨ ∃ reply, c.Performs s reply (s.after c) := by
  unfold after
  split
  next reply t hcall => exact .inr ⟨reply, Call.perform_eq_ok_iff.mp hcall⟩
  next => exact .inl rfl

/-- A call keeps the level itself intact, whatever it embeds. -/
theorem Intact.performs (hs : s.Intact) (h : c.Performs s reply t) : t.Intact := by
  cases h with
  | argument hname => exact hs.withArgument hname
  | constant hname => exact hs.withConstant hname
  | function _ hwait hadmits => exact hs.withFunction hwait hadmits
  | rewired _ _ hwait hcycle => exact hs.rewired (fun r hr => (hwait r hr).1) hcycle
  | copied scope => exact hs.copy scope

theorem Intact.after (hs : s.Intact) (c : Call) : (s.after c).Intact := by
  rcases s.after_eq_or c with heq | ⟨reply, h⟩
  · rwa [heq]
  · exact hs.performs h

theorem Intact.extends_of_performs (hs : s.Intact) (hc : c.InPlace) (h : c.Performs s reply t) :
    s.Extends t := by
  cases h with
  | argument _ => exact extends_withArgument s _
  | constant _ => exact extends_withConstant s _
  | function _ _ _ => exact hs.extends_withFunction _ _
  | rewired _ _ _ _ => exact extends_rewired s _ _
  | copied scope => exact absurd rfl (hc scope)

theorem Intact.extends_after (hs : s.Intact) (hc : c.InPlace) : s.Extends (s.after c) := by
  rcases s.after_eq_or c with heq | ⟨reply, h⟩
  · rw [heq]
    exact .refl s
  · exact hs.extends_of_performs hc h

theorem Reachable.performs (hs : s.Reachable)
    (hembedded : ∀ inner, c.embedded? = some inner → inner.Reachable)
    (h : c.Performs s reply t) : t.Reachable := by
  have hafter : s.after c = t := by rw [after, Call.perform_eq_ok_iff.mpr h]
  exact hafter ▸ hs.called c hembedded

theorem Reachable.addFunction (hs : s.Reachable) {payload : Payload} {wait : WaitClause}
    (hembedded : ∀ inner bindings, payload = .startScenario inner bindings → inner.Reachable)
    {handle : Handle} (h : s.addFunction payload wait = .ok (handle, t)) : t.Reachable := by
  obtain ⟨hwait, hadmits, -, rfl⟩ := addFunction_eq_ok_iff.mp h
  refine hs.performs (c := .addFunction payload wait) ?_ (.function rfl hwait hadmits)
  intro inner hinner
  obtain ⟨⟨_, bindings⟩, hstarted, rfl⟩ := Option.map_eq_some_iff.mp hinner
  exact hembedded _ bindings (Payload.started?_eq_some_iff.mp hstarted)

end Scenario

end Orchestration
