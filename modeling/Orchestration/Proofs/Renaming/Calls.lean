import Orchestration.Proofs.Renaming.Basic
import Orchestration.Proofs.Scenario.Growth

/-!
The building calls commute with renaming, so long as no two scopes become one: scopes are compared,
and nothing else is made of them. A call that is refused is refused for the same reason.
-/

namespace Orchestration

namespace Outcome

variable {α β γ δ : Type} {ρ : Scope → Scope}

/-- The outcome under other scopes: what is yielded becomes something else, and a failure is
renamed. -/
def renamed (ρ : Scope → Scope) (φ : α → β) : Except Failure α → Except Failure β
  | .ok value => .ok (φ value)
  | .error failure => .error (failure.rename ρ)

@[simp] theorem renamed_error (φ : α → β) (failure : Failure) :
    renamed ρ φ (.error failure) = .error (failure.rename ρ) :=
  rfl

@[simp] theorem renamed_pure (φ : α → β) (value : α) :
    renamed ρ φ (pure value) = pure (φ value) :=
  rfl

@[simp] theorem renamed_throw (φ : α → β) (failure : Failure) :
    renamed ρ φ (throw failure) = throw (failure.rename ρ) :=
  rfl

theorem renamed_bind {φ : α → γ} {ψ : β → δ} {x : Except Failure α} {y : Except Failure γ}
    {f : α → Except Failure β} {g : γ → Except Failure δ} (hx : y = renamed ρ φ x)
    (hf : ∀ a, g (φ a) = renamed ρ ψ (f a)) : y >>= g = renamed ρ ψ (x >>= f) := by
  subst hx
  cases x with
  | error failure => rfl
  | ok value => exact hf value

theorem renamed_forM {φ : α → β} {f : α → Except Failure Unit} {g : β → Except Failure Unit}
    {xs : List α} (h : ∀ x ∈ xs, g (φ x) = renamed ρ id (f x)) :
    (xs.map φ).forM g = renamed ρ id (xs.forM f) := by
  induction xs with
  | nil => rfl
  | cons x xs ih =>
      rw [List.forall_mem_cons] at h
      simp only [List.map_cons, List.forM]
      exact renamed_bind h.1 fun _ => ih h.2

theorem renamed_toOption (x : Except Failure α) :
    (renamed ρ id x).toOption = x.toOption := by
  cases x <;> rfl

end Outcome

open Outcome

section Failures

variable {ρ : Scope → Scope} (s : Scenario)

theorem Scenario.unresolved_rename (missing : Missing) :
    (s.rename ρ).unresolved (missing.rename ρ) = (s.unresolved missing).rename ρ := by
  simp only [unresolved, rename_name, rename_scope, Failure.rename]

theorem Scenario.kindMismatch_rename (id : FunctionId) (expected : FunctionKind) :
    (s.rename ρ).kindMismatch id expected = (s.kindMismatch id expected).rename ρ := by
  simp only [kindMismatch, rename_name, Failure.rename]

end Failures

theorem renamePayload_kind (ρ : Scope → Scope) (p : Payload) :
    (renamePayload ρ p).kind = p.kind := by
  cases p <;> simp only [renamePayload, Payload.kind]

theorem ScenarioFunction.rename_kind (ρ : Scope → Scope) (f : ScenarioFunction) :
    (f.rename ρ).kind = f.kind :=
  renamePayload_kind ρ f.payload

theorem ScenarioFunction.rename_started? (ρ : Scope → Scope) (f : ScenarioFunction) :
    (f.rename ρ).started? =
      f.started?.map (Prod.map (Scenario.rename ρ) (ParameterValue.renameEntries ρ)) := by
  obtain ⟨id, payload, wait⟩ := f
  cases payload <;> simp [rename, started?, Payload.started?, renamePayload]

theorem Reference.rename_outerId (ρ : Scope → Scope) (r : Reference) :
    (r.rename ρ).outerId = r.outerId :=
  rfl

theorem ValueReference.rename_isFunction (ρ : Scope → Scope) (r : ValueReference) :
    (r.rename ρ).isFunction = r.isFunction := by
  cases r <;> rfl

variable {ρ : Scope → Scope}

/-- What the registry refuses has nothing to do with scopes. -/
theorem JobRegistry.renamed_check (registry : JobRegistry) (j : JobLaunch) :
    renamed ρ id (registry.check j) = registry.check j := by
  unfold check
  split
  · split <;> rfl
  · split
    · rfl
    · split <;> rfl

theorem findCycle_rename (functions : List ScenarioFunction)
    (replaced : Option (FunctionId × WaitClause)) :
    findCycle (functions.map (ScenarioFunction.rename ρ))
        (replaced.map (Prod.map id (WaitClause.rename ρ))) =
      findCycle functions replaced := by
  have htargets : ∀ w : WaitClause, WaitGraph.targets (w.rename ρ) = WaitGraph.targets w := by
    intro w
    rw [WaitGraph.targets, WaitClause.references_rename, List.map_map]
    rfl
  have hclause : ∀ f : ScenarioFunction,
      WaitGraph.clauseOf (replaced.map (Prod.map id (WaitClause.rename ρ))) (f.rename ρ) =
        (WaitGraph.clauseOf replaced f).rename ρ := by
    intro f
    cases replaced with
    | none => rfl
    | some pair =>
        obtain ⟨id, wait⟩ := pair
        simp only [WaitGraph.clauseOf, Option.map_some, Prod.map_apply, id_eq,
          ScenarioFunction.rename]
        exact (apply_ite (WaitClause.rename ρ) _ _ _).symm
  rw [findCycle, findCycle, WaitGraph.ofFunctions, WaitGraph.ofFunctions, List.map_map]
  congr 3
  funext f
  simp only [Function.comp_apply, hclause, htargets]
  rfl

namespace ParameterTable

variable (t : ParameterTable)

theorem argument?_rename (name : String) : (t.rename ρ).argument? name = t.argument? name := rfl

theorem ensureUnused_rename (name : String) :
    (t.rename ρ).ensureUnused name = renamed ρ id (t.ensureUnused name) := by
  have huse : (t.rename ρ).use? name = t.use? name := rfl
  rw [ensureUnused, ensureUnused, huse]
  cases t.use? name <;> rfl

theorem addArgument_rename (name description : String) (default : Option Json) :
    (t.rename ρ).addArgument name description default =
      renamed ρ (Prod.map (ArgumentRef.rename ρ) (rename ρ))
        (t.addArgument name description default) :=
  renamed_bind (t.ensureUnused_rename name) fun _ => rfl

theorem addConstant_rename (name : String) (value : Json) :
    (t.rename ρ).addConstant name value =
      renamed ρ (Prod.map (ConstantRef.rename ρ) (rename ρ)) (t.addConstant name value) :=
  renamed_bind (t.ensureUnused_rename name) fun _ => rfl

theorem checkUniqueNames_rename :
    (t.rename ρ).checkUniqueNames = renamed ρ id t.checkUniqueNames := by
  have huses : (t.rename ρ).uses = t.uses := rfl
  rw [checkUniqueNames, checkUniqueNames, huses]
  cases firstRepeated [] t.uses <;> rfl

theorem resolvesArgument_rename (hρ : Function.Injective ρ) (a : ArgumentRef) :
    (t.rename ρ).resolvesArgument (a.rename ρ) = t.resolvesArgument a := by
  simp only [resolvesArgument, rename, ArgumentRef.rename, hρ.eq_iff]
  rfl

theorem constantValue?_rename (hρ : Function.Injective ρ) (c : ConstantRef) :
    (t.rename ρ).constantValue? (c.rename ρ) = t.constantValue? c := by
  simp only [constantValue?, rename, ConstantRef.rename, hρ.eq_iff]
  rfl

end ParameterTable

namespace Scenario

variable (s : Scenario)

theorem addArgument_rename (name description : String) (default : Option Json) :
    (s.rename ρ).addArgument name description default =
      renamed ρ (Prod.map (ArgumentRef.rename ρ) (rename ρ))
        (s.addArgument name description default) := by
  rw [addArgument, rename_parameters]
  refine renamed_bind (s.parameters.addArgument_rename name description default) fun _ => ?_
  refine congrArg Except.ok (Prod.ext rfl ?_)
  apply eq_rename <;> simp

theorem addConstant_rename (name : String) (value : Json) :
    (s.rename ρ).addConstant name value =
      renamed ρ (Prod.map (ConstantRef.rename ρ) (rename ρ)) (s.addConstant name value) := by
  rw [addConstant, rename_parameters]
  refine renamed_bind (s.parameters.addConstant_rename name value) fun _ => ?_
  refine congrArg Except.ok (Prod.ext rfl ?_)
  apply eq_rename <;> simp

variable (hρ : Function.Injective ρ)

include hρ

theorem checkHandle_rename (h : Handle) :
    (s.rename ρ).checkHandle (h.rename ρ) = renamed ρ id (s.checkHandle h) := by
  simp only [checkHandle, Handle.rename, rename_scope, ne_eq, hρ.eq_iff, function?_rename,
    Option.isNone_map]
  split
  · exact congrArg Except.error (s.unresolved_rename (.foreignFunction h.id h.scope))
  · split
    · exact congrArg Except.error (s.unresolved_rename (.function h.id))
    · rfl

theorem resolve_rename (r : Reference) :
    (s.rename ρ).resolve (r.rename ρ) = renamed ρ (ScenarioFunction.rename ρ) (s.resolve r) := by
  obtain ⟨scope, host, id⟩ := r
  by_cases hscope : scope = s.scope
  · subst hscope
    cases host with
    | none =>
        cases hfind : s.function? id <;>
          simp [resolve, Reference.rename, function?_rename, hfind, ← unresolved_rename,
            Missing.rename]
    | some host =>
        cases hhost : s.function? host with
        | none =>
            simp [resolve, Reference.rename, function?_rename, hhost, ← unresolved_rename,
              Missing.rename]
        | some f =>
            cases hstarted : f.started? with
            | none =>
                simp [resolve, Reference.rename, function?_rename, hhost, hstarted,
                  ScenarioFunction.rename_started?, ← kindMismatch_rename]
            | some started =>
                obtain ⟨inner, bindings⟩ := started
                cases hinner : inner.function? id <;>
                  simp [resolve, Reference.rename, function?_rename, hhost, hstarted, hinner,
                    ScenarioFunction.rename_started?, ← unresolved_rename, Missing.rename]
  · simp [resolve, Reference.rename, hscope, hρ.eq_iff, ← unresolved_rename, Missing.rename]

theorem embedded_rename (host : Handle) :
    (s.rename ρ).embedded (host.rename ρ) = renamed ρ (rename ρ) (s.embedded host) := by
  refine renamed_bind (s.checkHandle_rename hρ host) fun _ => ?_
  simp only [Handle.rename, function?_rename]
  cases hhost : s.function? host.id with
  | none => exact congrArg Except.error (s.kindMismatch_rename host.id .startScenario)
  | some f =>
      simp only [Option.map_some, Option.bind_some, ScenarioFunction.rename_started?]
      cases f.started? with
      | none => exact congrArg Except.error (s.kindMismatch_rename host.id .startScenario)
      | some started => rfl

theorem nestedRef_rename (host : Handle) (id : FunctionId) :
    (s.rename ρ).nestedRef (host.rename ρ) id =
      renamed ρ (Reference.rename ρ) (s.nestedRef host id) := by
  refine renamed_bind (s.checkHandle_rename hρ host) fun _ => ?_
  rw [rename_scope]
  exact renamed_bind (s.resolve_rename hρ (.nested s.scope host.id id)) fun _ => rfl

theorem nestedHandleRef_rename (host inner : Handle) :
    (s.rename ρ).nestedHandleRef (host.rename ρ) (inner.rename ρ) =
      renamed ρ (Reference.rename ρ) (s.nestedHandleRef host inner) := by
  refine renamed_bind (s.embedded_rename hρ host) fun embedded => ?_
  by_cases hscope : inner.scope = embedded.scope
  · simpa [Handle.rename, hscope] using s.nestedRef_rename hρ host inner.id
  · simp [Handle.rename, hscope, hρ.eq_iff, bind, Except.bind, throw, throwThe,
      MonadExceptOf.throw, ← unresolved_rename, Missing.rename]

theorem checkReference_rename (r : ValueReference) :
    (s.rename ρ).checkReference (r.rename ρ) = renamed ρ id (s.checkReference r) := by
  cases r with
  | argument a =>
      simp only [checkReference, ValueReference.rename, rename_parameters,
        ParameterTable.resolvesArgument_rename _ hρ]
      split
      · rfl
      · exact congrArg Except.error (s.unresolved_rename (.argument a.name))
  | constant c =>
      simp only [checkReference, ValueReference.rename, rename_parameters,
        ParameterTable.constantValue?_rename _ hρ]
      split
      · rfl
      · exact congrArg Except.error (s.unresolved_rename (.constant c.name))
  | function r => exact renamed_bind (s.resolve_rename hρ r) fun _ => rfl

theorem checkValue_rename (v : ParameterValue) :
    (s.rename ρ).checkValue (v.rename ρ) = renamed ρ id (s.checkValue v) := by
  rw [checkValue, ParameterValue.references_rename]
  exact renamed_forM fun r _ => s.checkReference_rename hρ r

theorem checkStopTarget_rename (expected : FunctionKind) (target : Reference) :
    (s.rename ρ).checkStopTarget expected (target.rename ρ) =
      renamed ρ id (s.checkStopTarget expected target) := by
  refine renamed_bind (s.resolve_rename hρ target) fun f => ?_
  have hnested : (target.rename ρ).isNested = target.isNested := rfl
  rw [hnested, f.rename_kind, target.rename_outerId]
  split
  · exact congrArg Except.error (s.kindMismatch_rename target.outerId expected)
  · rfl

theorem checkBinding_rename (inner : Scenario) (binding : String × ParameterValue) :
    (s.rename ρ).checkBinding (inner.rename ρ) (Prod.map id (ParameterValue.rename ρ) binding) =
      renamed ρ id (s.checkBinding inner binding) := by
  obtain ⟨name, value⟩ := binding
  have hany : (value.rename ρ).references.any ValueReference.isFunction =
      value.references.any ValueReference.isFunction := by
    rw [ParameterValue.references_rename, List.any_map]
    congr 1
    funext r
    exact r.rename_isFunction ρ
  simp only [checkBinding, Prod.map_apply, id_eq, rename_parameters, rename_name, hany,
    ParameterTable.argument?_rename]
  split
  · exact congrArg Except.error (s.unresolved_rename (.argumentOfEmbedded name inner.name))
  · split
    · exact congrArg Except.error (s.unresolved_rename (.functionBinding name inner.name))
    · exact s.checkValue_rename hρ value

theorem checkBindings_rename (inner : Scenario) (bindings : Entries String ParameterValue) :
    (s.rename ρ).checkBindings (inner.rename ρ) (ParameterValue.renameEntries ρ bindings) =
      renamed ρ id (s.checkBindings inner bindings) := by
  have hrequired : (inner.rename ρ).parameters.required = inner.parameters.required := by
    rw [rename_parameters]
    rfl
  have hhas : ∀ name, Entries.has name (ParameterValue.renameEntries ρ bindings) =
      Entries.has name bindings := by
    intro name
    rw [Entries.has, Entries.has, ParameterValue.renameEntries_eq_map, Entries.find?_map_values,
      Option.isSome_map]
  simp only [checkBindings, rename_scope, rename_name, hρ.eq_iff, hrequired, hhas]
  split
  · exact congrArg Except.error (s.unresolved_rename (.selfEmbedding inner.name))
  · split
    · rfl
    · rw [ParameterValue.renameEntries_eq_map]
      exact renamed_forM fun binding _ => s.checkBinding_rename hρ inner binding

theorem checkPayload_rename (p : Payload) :
    (s.rename ρ).checkPayload (renamePayload ρ p) = renamed ρ id (s.checkPayload p) := by
  cases p with
  | startJob job =>
      simp only [renamePayload, checkPayload, rename_registry, JobLaunch.check_rename,
        JobLaunch.values_rename]
      refine renamed_bind (s.registry.renamed_check job).symm fun _ => ?_
      exact renamed_forM fun v _ => s.checkValue_rename hρ v
  | stopJobs targets =>
      simp only [renamePayload, checkPayload]
      exact renamed_forM fun target _ => s.checkStopTarget_rename hρ .startJob target
  | startScenario inner bindings =>
      simp only [renamePayload, checkPayload]
      exact s.checkBindings_rename hρ inner bindings
  | stopScenario target =>
      simp only [renamePayload, checkPayload]
      exact s.checkStopTarget_rename hρ .startScenario target

theorem checkWait_rename (wait : WaitClause) :
    (s.rename ρ).checkWait (wait.rename ρ) = renamed ρ id (s.checkWait wait) := by
  rw [checkWait, WaitClause.references_rename]
  exact renamed_forM fun r _ => renamed_bind (s.resolve_rename hρ r) fun _ => rfl

theorem addFunction_rename (payload : Payload) (wait : WaitClause) :
    (s.rename ρ).addFunction (renamePayload ρ payload) (wait.rename ρ) =
      renamed ρ (Prod.map (Handle.rename ρ) (rename ρ)) (s.addFunction payload wait) := by
  refine renamed_bind (s.checkWait_rename hρ wait) fun _ => ?_
  refine renamed_bind (s.checkPayload_rename hρ payload) fun _ => ?_
  have hstored : { s.rename ρ with
      functions := (s.rename ρ).functions ++ [⟨s.ids.next, renamePayload ρ payload, wait.rename ρ⟩]
      ids := ⟨s.ids.next + 1⟩ } = (s.withFunction payload wait).rename ρ := by
    apply eq_rename <;> simp [withFunction, ScenarioFunction.rename]
  simp only [IdSupply.issue, rename_ids, renamePayload_kind]
  refine congrArg Except.ok (Prod.ext ?_ hstored)
  simp only [rename_scope, Prod.map_apply, Handle.rename]

theorem stopJobs_rename (targets : List Handle) (wait : WaitClause) :
    (s.rename ρ).stopJobs (targets.map (Handle.rename ρ)) (wait.rename ρ) =
      renamed ρ (Prod.map (Handle.rename ρ) (rename ρ)) (s.stopJobs targets wait) := by
  have hadd := s.addFunction_rename hρ (.stopJobs (targets.map Handle.reference)) wait
  have htargets : (targets.map (Handle.rename ρ)).map Handle.reference =
      (targets.map Handle.reference).map (Reference.rename ρ) := by
    rw [List.map_map, List.map_map]
    rfl
  rw [renamePayload] at hadd
  rw [stopJobs, htargets]
  exact hadd

theorem checkRewired_rename (waiting : FunctionId) (target : Reference) :
    (s.rename ρ).checkRewired waiting (target.rename ρ) =
      renamed ρ id (s.checkRewired waiting target) := by
  refine renamed_bind (s.resolve_rename hρ target) fun _ => ?_
  rw [target.rename_outerId, rename_name]
  split <;> rfl

theorem setWait_rename (h : Handle) (wait : WaitClause) :
    (s.rename ρ).setWait (h.rename ρ) (wait.rename ρ) =
      renamed ρ (rename ρ) (s.setWait h wait) := by
  refine renamed_bind (s.checkHandle_rename hρ h) fun _ => ?_
  rw [WaitClause.references_rename]
  refine renamed_bind (renamed_forM fun r _ => s.checkRewired_rename hρ h.id r) fun _ => ?_
  have hcycle : findCycle (s.rename ρ).functions (some (h.id, wait.rename ρ)) =
      findCycle s.functions (some (h.id, wait)) := by
    rw [rename_functions]
    exact findCycle_rename s.functions (some (h.id, wait))
  simp only [Handle.rename, hcycle]
  cases findCycle s.functions (some (h.id, wait)) with
  | some path => simp [Failure.rename]
  | none =>
      refine congrArg Except.ok (eq_rename ?_ ?_ ?_ ?_ ?_ ?_ ?_)
      all_goals simp
      intro f _
      by_cases hid : f.id = h.id <;> simp [ScenarioFunction.rename, hid]

end Scenario

end Orchestration
