import Orchestration.Proofs.Renaming.Calls
import Orchestration.Scenario.Extract

namespace Orchestration

open Outcome

/-- A match as it is found in a scenario under other scopes. -/
def JobMatch.rename (ρ : Scope → Scope) (m : JobMatch) : JobMatch :=
  ⟨m.reference.rename ρ, m.launch.rename ρ, m.endpoint.map (renamed ρ id)⟩

def ExtractedJob.rename (ρ : Scope → Scope) (j : ExtractedJob) : ExtractedJob :=
  { j with reference := j.reference.rename ρ }

namespace Scenario

theorem validate_eq (s : Scenario) : s.validate = (do
    s.parameters.checkUniqueNames
    validateFunctions s none s.functions
    match findCycle s.functions none with
    | some path => throw (.cycle s.name (path.head?.getD 0) path)
    | none => return ()) := by
  cases s
  unfold validate
  rfl

theorem outline_eq (s : Scenario) : s.outline = (do
    let functions ← outlineFunctions s s.functions
    return ⟨s.name, s.description, s.parameters.arguments, s.parameters.constants, functions⟩) := by
  cases s
  rw [outline]

end Scenario

variable {ρ : Scope → Scope} (hρ : Function.Injective ρ)

namespace ParameterValue

variable {s : Scenario} {argument argument' : ArgumentRef → Except Failure Json}

mutual

theorem resolveWith_rename (hρ : Function.Injective ρ)
    (hargument : ∀ ref, argument' (ref.rename ρ) = renamed ρ id (argument ref))
    (v : ParameterValue) :
    (v.rename ρ).resolveWith (s.rename ρ) argument' =
      renamed ρ id (v.resolveWith s argument) := by
  cases v with
  | literal value => simp [rename, resolveWith]
  | argument ref => simpa [rename, resolveWith] using hargument ref
  | constant ref =>
      simp only [rename, resolveWith, Scenario.rename_parameters,
        ParameterTable.constantValue?_rename _ hρ]
      cases s.parameters.constantValue? ref with
      | some value => rfl
      | none => exact congrArg Except.error (s.unresolved_rename (.constant ref.name))
  | function ref =>
      simp only [rename, resolveWith]
      rfl
  | list items =>
      simp only [rename, resolveWith, renameItems_eq_map]
      exact renamed_bind (resolveItems_rename hρ hargument items) fun _ => rfl
  | map entries =>
      simp only [rename, resolveWith, renameEntries_eq_map]
      exact renamed_bind (resolveEntries_rename hρ hargument entries) fun _ => rfl

theorem resolveItems_rename (hρ : Function.Injective ρ)
    (hargument : ∀ ref, argument' (ref.rename ρ) = renamed ρ id (argument ref))
    (items : List ParameterValue) :
    resolveItems (s.rename ρ) argument' (items.map (rename ρ)) =
      renamed ρ id (resolveItems s argument items) := by
  cases items with
  | nil => simp [resolveItems]
  | cons item items =>
      simp only [List.map_cons, resolveItems]
      refine renamed_bind (resolveWith_rename hρ hargument item) fun _ => ?_
      exact renamed_bind (resolveItems_rename hρ hargument items) fun _ => rfl

theorem resolveEntries_rename (hρ : Function.Injective ρ)
    (hargument : ∀ ref, argument' (ref.rename ρ) = renamed ρ id (argument ref))
    (entries : List (String × ParameterValue)) :
    resolveEntries (s.rename ρ) argument' (entries.map (Prod.map id (rename ρ))) =
      renamed ρ id (resolveEntries s argument entries) := by
  cases entries with
  | nil => simp [resolveEntries]
  | cons entry entries =>
      obtain ⟨key, value⟩ := entry
      simp only [List.map_cons, Prod.map_apply, resolveEntries]
      refine renamed_bind (resolveWith_rename hρ hargument value) fun _ => ?_
      exact renamed_bind (resolveEntries_rename hρ hargument entries) fun _ => rfl

end

end ParameterValue

include hρ

namespace Scenario

theorem resolveValue_rename (s : Scenario) (v : ParameterValue) :
    (s.rename ρ).resolveValue (v.rename ρ) = renamed ρ id (s.resolveValue v) :=
  v.resolveWith_rename hρ fun _ => rfl

theorem resolveValues_rename (s : Scenario) (entries : Entries String ParameterValue) :
    (s.rename ρ).resolveValues (ParameterValue.renameEntries ρ entries) =
      renamed ρ id (s.resolveValues entries) := by
  rw [ParameterValue.renameEntries_eq_map]
  exact ParameterValue.resolveEntries_rename hρ (fun _ => rfl) entries

section Check

theorem validateFunctions_rename (owner : Scenario) {functions : List ScenarioFunction}
    (hinside : ∀ f ∈ functions, ∀ inner bindings, f.payload = .startScenario inner bindings →
      (inner.rename ρ).validate = renamed ρ id inner.validate) (previous : Option FunctionId) :
    validateFunctions (owner.rename ρ) previous (functions.map (ScenarioFunction.rename ρ)) =
      renamed ρ id (validateFunctions owner previous functions) := by
  induction functions generalizing previous with
  | nil => simp [validateFunctions]
  | cons f rest ih =>
      rw [List.forall_mem_cons] at hinside
      obtain ⟨id, payload, wait⟩ := f
      rw [List.map_cons, ScenarioFunction.rename, validateFunctions, validateFunctions]
      split
      · rfl
      rw [WaitClause.references_rename]
      refine renamed_bind (renamed_forM fun r _ => owner.checkRewired_rename hρ id r) fun _ => ?_
      refine renamed_bind (owner.checkPayload_rename hρ payload) fun _ => ?_
      have hrest := ih hinside.2 (some id)
      cases payload with
      | startScenario inner bindings =>
          simp only [renamePayload]
          exact renamed_bind (hinside.1 inner bindings rfl) fun _ => hrest
      | startJob _ | stopJobs _ | stopScenario _ =>
          simp only [renamePayload]
          exact hrest

theorem validate_rename (s : Scenario) : (s.rename ρ).validate = renamed ρ id s.validate := by
  induction s using induction_on with
  | step s ih =>
      rw [validate_eq, validate_eq, rename_parameters, rename_functions, rename_name]
      refine renamed_bind s.parameters.checkUniqueNames_rename fun _ => ?_
      refine renamed_bind (validateFunctions_rename hρ s ?_ none) fun _ => ?_
      · exact fun f hf inner bindings hpayload => ih inner ⟨f, hf, bindings, hpayload⟩
      · have hcycle : findCycle (s.functions.map (ScenarioFunction.rename ρ)) none =
            findCycle s.functions none := findCycle_rename s.functions none
        rw [hcycle]
        cases findCycle s.functions none <;> rfl

end Check

section Describe

theorem outlinePayload_rename (owner : Scenario) {payload : Payload}
    (hinside : ∀ inner bindings, payload = .startScenario inner bindings →
      (inner.rename ρ).outline = renamed ρ id inner.outline) :
    outlinePayload (owner.rename ρ) (renamePayload ρ payload) =
      renamed ρ id (outlinePayload owner payload) := by
  have htargets : ∀ targets : List Reference,
      (targets.map (Reference.rename ρ)).map Reference.target = targets.map Reference.target := by
    intro targets
    rw [List.map_map]
    rfl
  cases payload with
  | startJob job =>
      simp only [renamePayload, outlinePayload]
      exact renamed_bind (owner.resolveValues_rename hρ job.arguments) fun _ => rfl
  | stopJobs targets =>
      simp only [renamePayload, outlinePayload, htargets]
      rfl
  | startScenario inner bindings =>
      simp only [renamePayload, outlinePayload, rename_name]
      refine renamed_bind (hinside inner bindings rfl) fun _ => ?_
      exact renamed_bind (owner.resolveValues_rename hρ bindings) fun _ => rfl
  | stopScenario target =>
      simp only [renamePayload, outlinePayload]
      rfl

theorem outlineFunctions_rename (owner : Scenario) {functions : List ScenarioFunction}
    (hinside : ∀ f ∈ functions, ∀ inner bindings, f.payload = .startScenario inner bindings →
      (inner.rename ρ).outline = renamed ρ id inner.outline) :
    outlineFunctions (owner.rename ρ) (functions.map (ScenarioFunction.rename ρ)) =
      renamed ρ id (outlineFunctions owner functions) := by
  induction functions with
  | nil => simp [outlineFunctions]
  | cons f rest ih =>
      rw [List.forall_mem_cons] at hinside
      obtain ⟨id, payload, wait⟩ := f
      rw [List.map_cons, ScenarioFunction.rename, outlineFunctions, outlineFunctions]
      refine renamed_bind (outlinePayload_rename hρ owner hinside.1) fun _ => ?_
      refine renamed_bind (ih hinside.2) fun _ => ?_
      simp only [WaitClause.rename, List.map_map, renamePayload_kind]
      rfl

theorem outline_rename (s : Scenario) : (s.rename ρ).outline = renamed ρ id s.outline := by
  induction s using induction_on with
  | step s ih =>
      rw [outline_eq, outline_eq, rename_functions, rename_parameters, rename_name,
        rename_description]
      refine renamed_bind (outlineFunctions_rename hρ s ?_) fun _ => rfl
      exact fun f hf inner bindings hpayload => ih inner ⟨f, hf, bindings, hpayload⟩

theorem describe_rename (s : Scenario) : (s.rename ρ).describe = renamed ρ id s.describe :=
  renamed_bind (s.validate_rename hρ) fun _ => s.outline_rename hρ

/-- The text does not show scopes. -/
theorem toText_rename (s : Scenario) (style : Json.Style) :
    (s.rename ρ).toText style = renamed ρ id (s.toText style) :=
  renamed_bind (s.describe_rename hρ) fun _ => rfl

end Describe

section Extraction

variable (s : Scenario)

theorem boundArgument_rename (inner : Scenario) (bindings : Entries String ParameterValue)
    (ref : ArgumentRef) :
    (s.rename ρ).boundArgument (inner.rename ρ) (ParameterValue.renameEntries ρ bindings)
        (ref.rename ρ) = renamed ρ id (s.boundArgument inner bindings ref) := by
  simp only [boundArgument, ArgumentRef.rename, ParameterValue.renameEntries_eq_map,
    Entries.find?_map_values, rename_parameters]
  cases Entries.find? ref.name bindings with
  | some value => exact s.resolveValue_rename hρ value
  | none => rfl

theorem resolveThrough_rename (inner : Scenario) (bindings : Entries String ParameterValue)
    (v : ParameterValue) :
    (s.rename ρ).resolveThrough (inner.rename ρ) (ParameterValue.renameEntries ρ bindings)
        (v.rename ρ) = renamed ρ id (s.resolveThrough inner bindings v) :=
  v.resolveWith_rename hρ (s.boundArgument_rename hρ inner bindings)

omit hρ in
theorem endpoint_resolve_rename (e : Endpoint)
    {value value' : ParameterValue → Except Failure Json}
    (hvalue : ∀ v, value' (v.rename ρ) = renamed ρ id (value v)) :
    (e.rename ρ).resolve value' = renamed ρ id (e.resolve value) := by
  obtain ⟨address, port⟩ := e
  refine renamed_bind (hvalue address) fun _ => ?_
  cases port with
  | none => rfl
  | some port => exact renamed_bind (hvalue port) fun _ => rfl

omit hρ in
theorem matchOf_rename {predicate : JobLaunch → Bool}
    (hpredicate : ∀ launch, predicate (launch.rename ρ) = predicate launch)
    {value value' : ParameterValue → Except Failure Json}
    (hvalue : ∀ v, value' (v.rename ρ) = renamed ρ id (value v)) (reference : Reference)
    (f : ScenarioFunction) :
    matchOf predicate value' (reference.rename ρ) (f.rename ρ) =
      (matchOf predicate value reference f).map (JobMatch.rename ρ) := by
  obtain ⟨id, payload, wait⟩ := f
  cases payload with
  | startJob launch =>
      simp only [matchOf, ScenarioFunction.rename, ScenarioFunction.job?, Payload.job?,
        renamePayload, hpredicate]
      split
      · cases hendpoint : launch.endpoint with
        | none => simp [JobMatch.rename, JobLaunch.rename, hendpoint]
        | some endpoint =>
            simp [JobMatch.rename, JobLaunch.rename, hendpoint,
              endpoint_resolve_rename endpoint hvalue]
      · rfl
  | stopJobs _ | startScenario _ _ | stopScenario _ =>
      simp [matchOf, ScenarioFunction.rename, ScenarioFunction.job?, Payload.job?, renamePayload]

theorem matchesOf_rename {predicate : JobLaunch → Bool}
    (hpredicate : ∀ launch, predicate (launch.rename ρ) = predicate launch)
    (f : ScenarioFunction) :
    (s.rename ρ).matchesOf predicate (f.rename ρ) =
      (s.matchesOf predicate f).map (JobMatch.rename ρ) := by
  rw [matchesOf, matchesOf, List.map_append, rename_scope]
  congr 1
  · exact matchOf_rename hpredicate (s.resolveValue_rename hρ) (.own s.scope f.id) f
  · rw [f.rename_started?]
    cases f.started? with
    | none => rfl
    | some started =>
        obtain ⟨inner, bindings⟩ := started
        simp only [Option.map_some, Prod.map_apply, rename_functions, List.flatMap_map,
          List.map_flatMap]
        congr 1
        funext g
        exact matchOf_rename hpredicate (s.resolveThrough_rename hρ inner bindings)
          (.nested s.scope f.id g.id) g

theorem jobMatches_rename {predicate : JobLaunch → Bool}
    (hpredicate : ∀ launch, predicate (launch.rename ρ) = predicate launch) :
    (s.rename ρ).jobMatches predicate = (s.jobMatches predicate).map (JobMatch.rename ρ) := by
  simp only [jobMatches, rename_functions, List.flatMap_map, List.map_flatMap,
    s.matchesOf_rename hρ hpredicate]

omit hρ in
theorem extracted_rename (m : JobMatch) : (m.rename ρ).extracted = m.extracted.rename ρ := by
  obtain ⟨reference, launch, endpoint⟩ := m
  cases endpoint with
  | none => rfl
  | some outcome => simp [JobMatch.rename, JobMatch.extracted, ExtractedJob.rename,
      JobLaunch.rename, renamed_toOption]

theorem extractJobs_rename {predicate : JobLaunch → Bool}
    (hpredicate : ∀ launch, predicate (launch.rename ρ) = predicate launch) :
    (s.rename ρ).extractJobs predicate =
      (s.extractJobs predicate).map (ExtractedJob.rename ρ) := by
  -- The order is that of the sort keys, in which no scope stands.
  have hsort : ∀ found : List ExtractedJob,
      (found.mergeSort fun a b => Reference.keyLE a.reference.sortKey b.reference.sortKey).map
        (ExtractedJob.rename ρ) = (found.map (ExtractedJob.rename ρ)).mergeSort fun a b =>
          Reference.keyLE a.reference.sortKey b.reference.sortKey :=
    fun found => List.map_mergeSort fun a _ b _ => rfl
  rw [extractJobs, extractJobs, s.jobMatches_rename hρ hpredicate, hsort]
  simp only [List.map_map, Function.comp_def, extracted_rename]

omit hρ in
theorem jobHandles_rename (name : String) :
    (s.rename ρ).jobHandles name = (s.jobHandles name).map (Handle.rename ρ) := by
  simp only [jobHandles, rename_functions, rename_scope, List.filterMap_map, List.map_filterMap]
  congr 1
  funext f
  obtain ⟨id, payload, wait⟩ := f
  cases payload with
  | startJob launch =>
      simp only [Function.comp_apply, ScenarioFunction.rename, ScenarioFunction.job?,
        Payload.job?, renamePayload, JobLaunch.rename]
      split <;> rfl
  | stopJobs _ | startScenario _ _ | stopScenario _ =>
      simp [ScenarioFunction.rename, ScenarioFunction.job?, Payload.job?, renamePayload]

end Extraction

end Scenario

end Orchestration
