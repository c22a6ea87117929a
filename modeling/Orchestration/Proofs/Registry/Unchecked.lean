import Orchestration.Proofs.Scenario.Reachable
import Orchestration.Scenario.Describe
import Orchestration.Scenario.Extract

/-!
Scenarios without their registries. A registry is asked only where the launch of a job is checked;
whatever else is asked of a scenario, the answer does not depend on the registries in it.
-/

namespace Orchestration

mutual

/-- The scenario with the permissive registry in place of its own, and likewise at every depth. -/
def Scenario.unchecked : Scenario → Scenario
  | ⟨name, description, scope, parameters, functions, ids, _⟩ =>
    ⟨name, description, scope, parameters, uncheckedFunctions functions, ids, .permissive⟩

def uncheckedFunctions : List ScenarioFunction → List ScenarioFunction
  | [] => []
  | ⟨id, payload, wait⟩ :: rest => ⟨id, payload.unchecked, wait⟩ :: uncheckedFunctions rest

def Payload.unchecked : Payload → Payload
  | .startJob job => .startJob job
  | .stopJobs targets => .stopJobs targets
  | .startScenario inner bindings => .startScenario inner.unchecked bindings
  | .stopScenario target => .stopScenario target

end

def ScenarioFunction.unchecked (f : ScenarioFunction) : ScenarioFunction :=
  ⟨f.id, f.payload.unchecked, f.wait⟩

theorem uncheckedFunctions_eq_map (functions : List ScenarioFunction) :
    uncheckedFunctions functions = functions.map ScenarioFunction.unchecked := by
  induction functions with
  | nil => rw [uncheckedFunctions, List.map_nil]
  | cons f rest ih =>
      obtain ⟨id, payload, wait⟩ := f
      rw [uncheckedFunctions, ih]
      rfl

namespace Payload

@[simp] theorem unchecked_kind (p : Payload) : p.unchecked.kind = p.kind := by
  cases p <;> simp only [unchecked, kind]

@[simp] theorem unchecked_job? (p : Payload) : p.unchecked.job? = p.job? := by
  cases p <;> simp only [unchecked, job?]

@[simp] theorem unchecked_started? (p : Payload) :
    p.unchecked.started? = p.started?.map fun started => (started.1.unchecked, started.2) := by
  cases p <;> simp [unchecked, started?]

end Payload

namespace ScenarioFunction

variable (f : ScenarioFunction)

@[simp] theorem unchecked_id : f.unchecked.id = f.id := rfl

@[simp] theorem unchecked_kind : f.unchecked.kind = f.kind := f.payload.unchecked_kind

@[simp] theorem unchecked_job? : f.unchecked.job? = f.job? := f.payload.unchecked_job?

@[simp] theorem unchecked_started? :
    f.unchecked.started? = f.started?.map fun started => (started.1.unchecked, started.2) :=
  f.payload.unchecked_started?

end ScenarioFunction

namespace Scenario

section Fields

variable (s : Scenario)

@[simp] theorem unchecked_name : s.unchecked.name = s.name := by
  cases s
  rw [unchecked]

@[simp] theorem unchecked_scope : s.unchecked.scope = s.scope := by
  cases s
  rw [unchecked]

@[simp] theorem unchecked_parameters : s.unchecked.parameters = s.parameters := by
  cases s
  rw [unchecked]

@[simp] theorem unchecked_ids : s.unchecked.ids = s.ids := by
  cases s
  rw [unchecked]

@[simp] theorem unchecked_registry : s.unchecked.registry = .permissive := by
  cases s
  rw [unchecked]

@[simp] theorem unchecked_functions :
    s.unchecked.functions = s.functions.map ScenarioFunction.unchecked := by
  cases s
  rw [unchecked, uncheckedFunctions_eq_map]

@[simp] theorem unchecked_function? (id : FunctionId) :
    s.unchecked.function? id = (s.function? id).map ScenarioFunction.unchecked := by
  rw [function?, function?, unchecked_functions]
  exact Bisection.find?_map ScenarioFunction.unchecked (fun _ => rfl) s.functions

@[simp] theorem unchecked_unresolved (missing : Missing) :
    s.unchecked.unresolved missing = s.unresolved missing := by
  simp only [unresolved, unchecked_name, unchecked_scope]

@[simp] theorem unchecked_kindMismatch (id : FunctionId) (expected : FunctionKind) :
    s.unchecked.kindMismatch id expected = s.kindMismatch id expected := by
  simp only [kindMismatch, unchecked_name]

end Fields

section Checks

variable (s : Scenario)

@[simp] theorem unchecked_checkHandle (h : Handle) :
    s.unchecked.checkHandle h = s.checkHandle h := by
  simp [checkHandle]

theorem unchecked_resolve (r : Reference) :
    s.unchecked.resolve r = (s.resolve r).map ScenarioFunction.unchecked := by
  have hthrow : ∀ failure : Failure, (throw failure : Except Failure ScenarioFunction).map
      ScenarioFunction.unchecked = throw failure := fun _ => rfl
  have hpure : ∀ f : ScenarioFunction, (pure f : Except Failure ScenarioFunction).map
      ScenarioFunction.unchecked = pure f.unchecked := fun _ => rfl
  obtain ⟨scope, host, id⟩ := r
  by_cases hscope : scope = s.scope
  · cases host with
    | none => cases hfind : s.function? id <;> simp [resolve, hscope, hfind, hthrow, hpure]
    | some host =>
        cases hhost : s.function? host with
        | none => simp [resolve, hscope, hhost, hthrow]
        | some f =>
            cases hstarted : f.started? with
            | none => simp [resolve, hscope, hhost, hstarted, hthrow]
            | some started =>
                obtain ⟨inner, bindings⟩ := started
                cases hinner : inner.function? id <;>
                  simp [resolve, hscope, hhost, hstarted, hinner, hthrow, hpure]
  · simp [resolve, hscope, hthrow]

/-- A check that looks at a resolved function comes to the same, if it looks at nothing that a
registry changes. -/
theorem unchecked_resolve_bind {α : Type} (r : Reference) {f : ScenarioFunction → Except Failure α}
    (hf : ∀ g, f g.unchecked = f g) : (s.unchecked.resolve r >>= f) = s.resolve r >>= f := by
  rw [unchecked_resolve]
  cases s.resolve r with
  | ok g => exact hf g
  | error failure => rfl

@[simp] theorem unchecked_checkWait (wait : WaitClause) :
    s.unchecked.checkWait wait = s.checkWait wait := by
  unfold checkWait
  congr 1
  funext r
  exact s.unchecked_resolve_bind r fun _ => rfl

@[simp] theorem unchecked_checkReference (r : ValueReference) :
    s.unchecked.checkReference r = s.checkReference r := by
  cases r with
  | argument a | constant c => simp [checkReference]
  | function r => exact s.unchecked_resolve_bind r fun _ => rfl

@[simp] theorem unchecked_checkValue (value : ParameterValue) :
    s.unchecked.checkValue value = s.checkValue value := by
  unfold checkValue
  congr 1
  funext r
  exact s.unchecked_checkReference r

@[simp] theorem unchecked_checkStopTarget (kind : FunctionKind) (target : Reference) :
    s.unchecked.checkStopTarget kind target = s.checkStopTarget kind target := by
  unfold checkStopTarget
  rw [unchecked_kindMismatch]
  exact s.unchecked_resolve_bind target fun g => by rw [g.unchecked_kind]

@[simp] theorem unchecked_checkRewired (id : FunctionId) (target : Reference) :
    s.unchecked.checkRewired id target = s.checkRewired id target := by
  unfold checkRewired
  rw [unchecked_name]
  exact s.unchecked_resolve_bind target fun _ => rfl

@[simp] theorem unchecked_checkBindings (inner : Scenario)
    (bindings : Entries String ParameterValue) :
    s.unchecked.checkBindings inner.unchecked bindings = s.checkBindings inner bindings := by
  have hbinding : s.unchecked.checkBinding inner.unchecked = s.checkBinding inner := by
    funext binding
    simp [checkBinding]
  simp [checkBindings, hbinding]

/-- Only the launch of a job is checked with the registry. -/
theorem unchecked_checkPayload {payload : Payload}
    (haccepted : ∀ job, payload = .startJob job → s.registry.check job = .ok ()) :
    s.unchecked.checkPayload payload.unchecked = s.checkPayload payload := by
  cases payload with
  | startJob job =>
      have hchecked : s.unchecked.checkValue = s.checkValue := funext s.unchecked_checkValue
      simp only [Payload.unchecked, checkPayload, unchecked_registry, haccepted job rfl, hchecked]
      rfl
  | stopJobs targets =>
      have hchecked : s.unchecked.checkStopTarget .startJob = s.checkStopTarget .startJob :=
        funext (s.unchecked_checkStopTarget .startJob)
      simp only [Payload.unchecked, checkPayload, hchecked]
  | startScenario inner bindings =>
      simp only [Payload.unchecked, checkPayload, unchecked_checkBindings]
  | stopScenario target => simp only [Payload.unchecked, checkPayload, unchecked_checkStopTarget]

end Checks

section Storing

variable (s : Scenario)

theorem unchecked_withFunction (payload : Payload) (wait : WaitClause) :
    (s.withFunction payload wait).unchecked = s.unchecked.withFunction payload.unchecked wait := by
  cases s
  simp [unchecked, withFunction, uncheckedFunctions_eq_map, ScenarioFunction.unchecked]

theorem unchecked_rewired (id : FunctionId) (wait : WaitClause) :
    (s.rewired id wait).unchecked = s.unchecked.rewired id wait := by
  cases s
  simp only [unchecked, rewired, uncheckedFunctions_eq_map, List.map_map]
  congr 1
  apply List.map_congr_left
  intro f _
  by_cases hid : f.id = id <;> simp [ScenarioFunction.unchecked, hid]

end Storing

end Scenario

theorem findCycle_unchecked (functions : List ScenarioFunction)
    (replaced : Option (FunctionId × WaitClause)) :
    findCycle (functions.map ScenarioFunction.unchecked) replaced =
      findCycle functions replaced := by
  rw [findCycle, findCycle, WaitGraph.ofFunctions, WaitGraph.ofFunctions, List.map_map]
  rfl

section Copies

mutual

theorem Scenario.unchecked_copy (s : Scenario) (target : Scope) :
    (s.copy target).unchecked = s.unchecked.copy target := by
  obtain ⟨name, description, scope, parameters, functions, ids, registry⟩ := s
  simp only [Scenario.copy, Scenario.unchecked, uncheckedFunctions_copy scope target functions]

theorem uncheckedFunctions_copy (source target : Scope) (functions : List ScenarioFunction) :
    uncheckedFunctions (copyFunctions source target functions) =
      copyFunctions source target (uncheckedFunctions functions) := by
  cases functions with
  | nil => simp only [copyFunctions, uncheckedFunctions]
  | cons f rest =>
      obtain ⟨id, payload, wait⟩ := f
      simp only [copyFunctions, uncheckedFunctions, Payload.unchecked_copy source target id payload,
        uncheckedFunctions_copy source target rest]

theorem Payload.unchecked_copy (source target : Scope) (id : FunctionId) (payload : Payload) :
    (copyPayload source target id payload).unchecked =
      copyPayload source target id payload.unchecked := by
  cases payload with
  | startJob job => simp only [copyPayload, Payload.unchecked]
  | stopJobs targets => simp only [copyPayload, Payload.unchecked]
  | startScenario inner bindings =>
      simp only [copyPayload, Payload.unchecked, Scenario.unchecked_copy inner (target.child id)]
  | stopScenario reference => simp only [copyPayload, Payload.unchecked]

end

end Copies

section Writing

namespace ParameterValue

variable (s : Scenario) (argument : ArgumentRef → Except Failure Json)

mutual

theorem resolveWith_unchecked (value : ParameterValue) :
    value.resolveWith s.unchecked argument = value.resolveWith s argument := by
  cases value with
  | literal value => simp only [resolveWith]
  | argument ref => simp only [resolveWith]
  | constant ref =>
      simp only [resolveWith, Scenario.unchecked_parameters, Scenario.unchecked_unresolved]
  | function ref => simp only [resolveWith]
  | list items => simp only [resolveWith, resolveItems_unchecked items]
  | map entries => simp only [resolveWith, resolveEntries_unchecked entries]

theorem resolveItems_unchecked (items : List ParameterValue) :
    resolveItems s.unchecked argument items = resolveItems s argument items := by
  cases items with
  | nil => simp only [resolveItems]
  | cons item items =>
      simp only [resolveItems, resolveWith_unchecked item, resolveItems_unchecked items]

theorem resolveEntries_unchecked (entries : List (String × ParameterValue)) :
    resolveEntries s.unchecked argument entries = resolveEntries s argument entries := by
  cases entries with
  | nil => simp only [resolveEntries]
  | cons entry entries =>
      obtain ⟨key, value⟩ := entry
      simp only [resolveEntries, resolveWith_unchecked value, resolveEntries_unchecked entries]

end

end ParameterValue

mutual

/-- The description shows no registry. -/
theorem Scenario.outline_unchecked (s : Scenario) : s.unchecked.outline = s.outline := by
  obtain ⟨name, description, scope, parameters, functions, ids, registry⟩ := s
  have hfunctions := outlineFunctions_unchecked
    ⟨name, description, scope, parameters, functions, ids, registry⟩ functions
  rw [Scenario.unchecked] at hfunctions ⊢
  simp only [Scenario.outline, hfunctions]

theorem outlineFunctions_unchecked (owner : Scenario) (functions : List ScenarioFunction) :
    outlineFunctions owner.unchecked (uncheckedFunctions functions) =
      outlineFunctions owner functions := by
  cases functions with
  | nil => simp only [uncheckedFunctions, outlineFunctions]
  | cons f rest =>
      obtain ⟨id, payload, wait⟩ := f
      simp only [uncheckedFunctions, outlineFunctions, outlinePayload_unchecked owner payload,
        outlineFunctions_unchecked owner rest, Payload.unchecked_kind]

theorem outlinePayload_unchecked (owner : Scenario) (payload : Payload) :
    outlinePayload owner.unchecked payload.unchecked = outlinePayload owner payload := by
  have hvalues : owner.unchecked.resolveValues = owner.resolveValues := by
    funext entries
    exact ParameterValue.resolveEntries_unchecked owner _ entries
  cases payload with
  | startJob job => simp only [Payload.unchecked, outlinePayload, hvalues]
  | stopJobs targets => simp only [Payload.unchecked, outlinePayload]
  | startScenario inner bindings =>
      simp only [Payload.unchecked, outlinePayload, hvalues, Scenario.outline_unchecked inner,
        Scenario.unchecked_name]
  | stopScenario target => simp only [Payload.unchecked, outlinePayload]

end

end Writing

section Extraction

variable (s : Scenario)

theorem Scenario.matchOf_unchecked (predicate : JobLaunch → Bool)
    (value : ParameterValue → Except Failure Json) (reference : Reference) (f : ScenarioFunction) :
    matchOf predicate value reference f.unchecked = matchOf predicate value reference f := by
  simp only [matchOf, ScenarioFunction.unchecked_job?]

theorem Scenario.jobMatches_unchecked (predicate : JobLaunch → Bool) :
    s.unchecked.jobMatches predicate = s.jobMatches predicate := by
  have hvalue : s.unchecked.resolveValue = s.resolveValue :=
    funext (ParameterValue.resolveWith_unchecked s _)
  have hbound : ∀ inner : Scenario, s.unchecked.boundArgument inner.unchecked =
      s.boundArgument inner := by
    intro inner
    funext bindings ref
    simp only [boundArgument, hvalue, unchecked_parameters]
  have hthrough : ∀ inner : Scenario, s.unchecked.resolveThrough inner.unchecked =
      s.resolveThrough inner := by
    intro inner
    funext bindings value
    simp only [resolveThrough, hbound]
    exact ParameterValue.resolveWith_unchecked inner _ value
  have hmatches : ∀ f : ScenarioFunction, s.unchecked.matchesOf predicate f.unchecked =
      s.matchesOf predicate f := by
    intro f
    rw [matchesOf, matchesOf, matchOf_unchecked, hvalue, unchecked_scope, f.unchecked_id,
      f.unchecked_started?]
    congr 1
    cases f.started? with
    | none => rfl
    | some started =>
        obtain ⟨inner, bindings⟩ := started
        simp only [Option.map_some, unchecked_functions, List.flatMap_map,
          hthrough, matchOf_unchecked, ScenarioFunction.unchecked_id]
  simp only [jobMatches, unchecked_functions, List.flatMap_map, hmatches]

end Extraction

end Orchestration
