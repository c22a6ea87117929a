import Orchestration.Proofs.Registry.Unchecked
import Orchestration.Proofs.Renaming.Steps
import Orchestration.Proofs.Scenario.Calls
import Orchestration.Proofs.Scenario.Outline

namespace Orchestration

/-- The failure is that of a job which a registry refuses. -/
def Failure.IsRefusal : Failure → Prop
  | .unknownJob _ | .invalidArguments _ _ => True
  | _ => False

theorem JobRegistry.isRefusal_of_check {registry : JobRegistry} {j : JobLaunch} {failure : Failure}
    (h : registry.check j = .error failure) : failure.IsRefusal := by
  unfold check at h
  split at h
  · split at h
    · cases h
      trivial
    · cases h
  · split at h
    · cases h
      trivial
    · split at h
      · cases h
        trivial
      · cases h

namespace Scenario

variable (s : Scenario)

theorem addArgument_unchecked (name description : String) (default : Option Json) :
    s.unchecked.addArgument name description default =
      (s.addArgument name description default).map (Prod.map id unchecked) := by
  rw [addArgument, addArgument, unchecked_parameters]
  cases s.parameters.addArgument name description default with
  | error failure => rfl
  | ok added =>
      cases s
      simp [unchecked, bind, Except.bind, pure, Except.pure, Except.map]

theorem addConstant_unchecked (name : String) (value : Json) :
    s.unchecked.addConstant name value =
      (s.addConstant name value).map (Prod.map id unchecked) := by
  rw [addConstant, addConstant, unchecked_parameters]
  cases s.parameters.addConstant name value with
  | error failure => rfl
  | ok added =>
      cases s
      simp [unchecked, bind, Except.bind, pure, Except.pure, Except.map]

theorem addFunction_unchecked (payload : Payload) (wait : WaitClause)
    (haccepted : ∀ job, payload = .startJob job → s.registry.check job = .ok ()) :
    s.unchecked.addFunction payload.unchecked wait =
      (s.addFunction payload wait).map (Prod.map id unchecked) := by
  rw [addFunction, addFunction, unchecked_checkWait, s.unchecked_checkPayload haccepted]
  cases s.checkWait wait with
  | error failure => rfl
  | ok _ =>
      cases s.checkPayload payload with
      | error failure => rfl
      | ok _ =>
          have hadded := s.unchecked_withFunction payload wait
          simp only [withFunction] at hadded
          simp [bind, Except.bind, pure, Except.pure, Except.map, IdSupply.issue, hadded]

/-- The failures of a clause come before those of the registry. -/
theorem addFunction_refused_or (payload : Payload) (wait : WaitClause) :
    (∃ failure, s.addFunction payload wait = .error failure ∧ failure.IsRefusal) ∨
      s.unchecked.addFunction payload.unchecked wait =
        (s.addFunction payload wait).map (Prod.map id unchecked) := by
  by_cases haccepted : ∀ job, payload = .startJob job → s.registry.check job = .ok ()
  · exact .inr (s.addFunction_unchecked payload wait haccepted)
  · push Not at haccepted
    obtain ⟨job, rfl, hrefused⟩ := haccepted
    cases hcheck : s.registry.check job with
    | ok _ => exact absurd hcheck hrefused
    | error failure =>
        rw [addFunction, addFunction, unchecked_checkWait, checkPayload, hcheck]
        cases s.checkWait wait with
        | error failure => exact .inr rfl
        | ok _ => exact .inl ⟨failure, rfl, JobRegistry.isRefusal_of_check hcheck⟩

theorem setWait_unchecked (h : Handle) (wait : WaitClause) :
    s.unchecked.setWait h wait = (s.setWait h wait).map unchecked := by
  have hrewired : s.unchecked.checkRewired h.id = s.checkRewired h.id :=
    funext (s.unchecked_checkRewired h.id)
  rw [setWait, setWait, unchecked_checkHandle, hrewired, unchecked_functions, findCycle_unchecked,
    unchecked_name]
  cases s.checkHandle h with
  | error failure => rfl
  | ok _ =>
      cases wait.references.forM (s.checkRewired h.id) with
      | error failure => rfl
      | ok _ =>
          cases findCycle s.functions (some (h.id, wait)) with
          | some path => rfl
          | none =>
              have hstored := s.unchecked_rewired h.id wait
              simp only [rewired, unchecked_functions, unchecked_name] at hstored
              exact congrArg Except.ok hstored.symm

end Scenario

namespace Call

def unchecked : Call → Call
  | .addFunction payload wait => .addFunction payload.unchecked wait
  | .startScenario inner bindings wait => .startScenario inner.unchecked bindings wait
  | c => c

theorem unchecked_added? (c : Call) :
    c.unchecked.added? = c.added?.map (Prod.map Payload.unchecked id) := by
  cases c <;> simp [unchecked, added?, Payload.unchecked]

theorem unchecked_embedded? (c : Call) :
    c.unchecked.embedded? = c.embedded?.map Scenario.unchecked := by
  cases c <;> simp [unchecked, embedded?, Option.map_map, Function.comp_def]

/-- If the call is to launch a job, the registry of the scenario accepts it. -/
def AcceptedBy (c : Call) (s : Scenario) : Prop :=
  ∀ job wait, c.added? = some (.startJob job, wait) → s.registry.check job = .ok ()

variable {s t : Scenario} {c : Call} {reply : Reply}

theorem Performs.accepted (h : c.Performs s reply t) : c.AcceptedBy s := by
  intro job wait hadded
  cases h with
  | function hadded' _ hadmits =>
      obtain ⟨rfl, -⟩ := Prod.mk.inj (Option.some.inj (hadded'.symm.trans hadded))
      exact hadmits.1
  | argument _ | constant _ | rewired _ _ _ _ | copied _ => cases hadded

theorem acceptedBy_permissive (h : s.registry = .permissive) : c.AcceptedBy s := by
  intro job wait _
  rw [h]
  rfl

/-- Without registries, an accepted call has the same outcome. -/
theorem perform_unchecked (h : c.AcceptedBy s) :
    c.unchecked.perform s.unchecked = (c.perform s).map (Prod.map id Scenario.unchecked) := by
  cases hadded : c.added? with
  | some added =>
      obtain ⟨payload, wait⟩ := added
      have hadded' : c.unchecked.added? = some (payload.unchecked, wait) := by
        rw [unchecked_added?, hadded]
        rfl
      rw [perform_of_added? hadded, perform_of_added? hadded', s.addFunction_unchecked]
      · cases s.addFunction payload wait <;> rfl
      · rintro job rfl
        exact h job wait hadded
  | none =>
      cases c with
      | addArgument name description default =>
          simp only [unchecked, perform, s.addArgument_unchecked]
          cases s.addArgument name description default <;> rfl
      | addConstant name value =>
          simp only [unchecked, perform, s.addConstant_unchecked]
          cases s.addConstant name value <;> rfl
      | setWait handle wait =>
          simp only [unchecked, perform, s.setWait_unchecked]
          cases s.setWait handle wait <;> rfl
      | copy scope =>
          simp only [unchecked, perform, ← s.unchecked_copy]
          rfl
      | _ => cases hadded

theorem Performs.registry (h : c.Performs s reply t) : t.registry = s.registry := by
  cases h with
  | argument _ | constant _ | function _ _ _ | rewired _ _ _ _ => rfl
  | copied scope => exact s.copy_registry scope

/-- A scenario that is the same up to registries and has the permissive one takes the same call in
the same way. -/
theorem Performs.permissive (h : c.Performs s reply t) {s' : Scenario} {c' : Call}
    (hs : s'.unchecked = s.unchecked) (hregistry : s'.registry = .permissive)
    (hc : c'.unchecked = c.unchecked) :
    ∃ t', c'.Performs s' reply t' ∧ t'.unchecked = t.unchecked := by
  have hfree := perform_unchecked h.accepted
  rw [perform_eq_ok_iff.mpr h, ← hs, ← hc,
    perform_unchecked (acceptedBy_permissive hregistry)] at hfree
  cases hcall : c'.perform s' with
  | error failure =>
      rw [hcall] at hfree
      cases hfree
  | ok result =>
      obtain ⟨reply', t'⟩ := result
      rw [hcall] at hfree
      obtain ⟨rfl, ht⟩ := Prod.mk.inj (Except.ok.inj hfree)
      exact ⟨t', perform_eq_ok_iff.mp hcall, ht⟩

end Call

namespace Scenario

variable {s t : Scenario}

theorem unchecked_create (scope : Scope) (name description : String) (registry : JobRegistry) :
    (create scope name description registry).unchecked = create scope name description := by
  simp only [create, unchecked, uncheckedFunctions]

/-- What was built under registries can be built without them. -/
theorem Reachable.unchecked (h : s.Reachable) : s.unchecked.Reachable := by
  induction h with
  | created scope name description registry =>
      rw [unchecked_create]
      exact .created scope name description .permissive
  | @called s built call _ ih ihEmbedded =>
      rcases s.after_eq_or call with heq | ⟨reply, hcall⟩
      · rw [heq]
        exact ih
      · have hafter : s.unchecked.after call.unchecked = (s.after call).unchecked := by
          have hfree := Call.perform_unchecked hcall.accepted
          rw [Call.perform_eq_ok_iff.mpr hcall] at hfree
          rw [after, hfree]
          rfl
        rw [← hafter]
        refine ih.called call.unchecked ?_
        intro inner hinner
        rw [Call.unchecked_embedded?] at hinner
        obtain ⟨original, horiginal, rfl⟩ := Option.map_eq_some_iff.mp hinner
        exact ihEmbedded original horiginal

theorem Reachable.same_text (hs : s.Reachable) (ht : t.Reachable) (h : t.outline = s.outline)
    (style : Json.Style) : ∃ text, s.toText style = .ok text ∧ t.toText style = .ok text := by
  obtain ⟨d, hdescribe, hd⟩ := hs.exists_describe
  obtain ⟨d', hdescribe', hd'⟩ := ht.exists_describe
  obtain rfl : d' = d := by
    rw [hd, hd'] at h
    exact Except.ok.inj h
  refine ⟨d'.toJson.text style, ?_, ?_⟩
  · rw [toText, hdescribe]
    rfl
  · rw [toText, hdescribe']
    rfl

/-- Calls that are not refused are answered in the same way without registries. -/
theorem answers_permissive {calls calls' : List Call} (hst : t.unchecked = s.unchecked)
    (hregistry : t.registry = .permissive)
    (hcalls : calls'.map Call.unchecked = calls.map Call.unchecked)
    (hok : ∀ outcome ∈ s.answers (calls.map .call), ∃ answer, outcome = .ok answer) :
    t.answers (calls'.map .call) = s.answers (calls.map .call) ∧
      (t.run (calls'.map .call)).unchecked = (s.run (calls.map .call)).unchecked := by
  induction calls generalizing s t calls' with
  | nil =>
      obtain rfl := List.map_eq_nil_iff.mp hcalls
      exact ⟨rfl, hst⟩
  | cons c calls ih =>
      obtain ⟨c', rest, rfl, hc, hrest⟩ := List.map_eq_cons_iff.mp hcalls
      rw [List.map_cons, answers, List.forall_mem_cons] at hok
      obtain ⟨⟨answer, hanswer⟩, hok⟩ := hok
      obtain ⟨⟨reply, u⟩, hcall, -⟩ := Outcome.bind_eq_ok_iff.mp hanswer
      have hperforms := Call.perform_eq_ok_iff.mp hcall
      obtain ⟨u', hperforms', hu⟩ := hperforms.permissive hst hregistry hc
      have hcall' := Call.perform_eq_ok_iff.mpr hperforms'
      have hnext : Step.next s (.call c) = u := by rw [Step.next, after, hcall]
      have hnext' : Step.next t (.call c') = u' := by rw [Step.next, after, hcall']
      rw [hnext] at hok
      obtain ⟨hanswers, hrun⟩ := ih hu (hperforms'.registry.trans hregistry) hrest hok
      constructor
      · simp only [List.map_cons, answers, hnext, hnext', hanswers, Step.answer, hcall, hcall']
        rfl
      · simpa only [List.map_cons, run, List.foldl_cons, hnext, hnext'] using hrun

end Scenario

end Orchestration
