import Orchestration.Proofs.Bisection
import Orchestration.Proofs.Entries
import Orchestration.Scenario.Basic

namespace Orchestration

section Rename

variable (ρ : Scope → Scope)

def Reference.rename (r : Reference) : Reference := { r with scope := ρ r.scope }

def Handle.rename (h : Handle) : Handle := { h with scope := ρ h.scope }

def WaitClause.rename (w : WaitClause) : WaitClause :=
  { w with
    finished := w.finished.map (Reference.rename ρ)
    launched := w.launched.map (Reference.rename ρ) }

def ArgumentRef.rename (a : ArgumentRef) : ArgumentRef := { a with scope := ρ a.scope }

def ConstantRef.rename (c : ConstantRef) : ConstantRef := { c with scope := ρ c.scope }

def ValueReference.rename : ValueReference → ValueReference
  | .argument a => .argument (a.rename ρ)
  | .constant c => .constant (c.rename ρ)
  | .function r => .function (r.rename ρ)

namespace ParameterValue

mutual

def rename : ParameterValue → ParameterValue
  | .literal value => .literal value
  | .argument ref => .argument (ref.rename ρ)
  | .constant ref => .constant (ref.rename ρ)
  | .function ref => .function (ref.rename ρ)
  | .list items => .list (renameItems items)
  | .map entries => .map (renameEntries entries)

def renameItems : List ParameterValue → List ParameterValue
  | [] => []
  | item :: items => item.rename :: renameItems items

def renameEntries : List (String × ParameterValue) → List (String × ParameterValue)
  | [] => []
  | (key, value) :: entries => (key, value.rename) :: renameEntries entries

end

end ParameterValue

def Endpoint.rename (e : Endpoint) : Endpoint :=
  ⟨e.address.rename ρ, e.port.map (ParameterValue.rename ρ)⟩

def JobLaunch.rename (j : JobLaunch) : JobLaunch :=
  { j with
    arguments := ParameterValue.renameEntries ρ j.arguments
    endpoint := j.endpoint.map (Endpoint.rename ρ) }

def ParameterTable.rename (t : ParameterTable) : ParameterTable := { t with scope := ρ t.scope }

mutual

def Scenario.rename : Scenario → Scenario
  | ⟨name, description, scope, parameters, functions, ids, registry⟩ =>
    ⟨name, description, ρ scope, parameters.rename ρ, renameFunctions functions, ids, registry⟩

def renameFunctions : List ScenarioFunction → List ScenarioFunction
  | [] => []
  | ⟨id, payload, wait⟩ :: rest =>
    ⟨id, renamePayload payload, wait.rename ρ⟩ :: renameFunctions rest

def renamePayload : Payload → Payload
  | .startJob job => .startJob (job.rename ρ)
  | .stopJobs targets => .stopJobs (targets.map (Reference.rename ρ))
  | .startScenario inner bindings =>
    .startScenario inner.rename (ParameterValue.renameEntries ρ bindings)
  | .stopScenario target => .stopScenario (target.rename ρ)

end

def ScenarioFunction.rename (f : ScenarioFunction) : ScenarioFunction :=
  ⟨f.id, renamePayload ρ f.payload, f.wait.rename ρ⟩

def Missing.rename : Missing → Missing
  | .foreignFunction id scope => .foreignFunction id (ρ scope)
  | missing => missing

/-- A failure as it is reported of scenarios under other scopes. -/
def Failure.rename : Failure → Failure
  | .unresolved scenario scope missing => .unresolved scenario (ρ scope) (missing.rename ρ)
  | failure => failure

end Rename

variable {ρ : Scope → Scope}

section Lists

@[simp] theorem renameFunctions_eq_map (functions : List ScenarioFunction) :
    renameFunctions ρ functions = functions.map (ScenarioFunction.rename ρ) := by
  induction functions with
  | nil => rw [renameFunctions, List.map_nil]
  | cons f rest ih =>
      obtain ⟨id, payload, wait⟩ := f
      rw [renameFunctions, ih]
      rfl

namespace ParameterValue

@[simp] theorem renameItems_eq_map (items : List ParameterValue) :
    renameItems ρ items = items.map (rename ρ) := by
  induction items with
  | nil => rw [renameItems, List.map_nil]
  | cons item items ih => rw [renameItems, ih, List.map_cons]

@[simp] theorem renameEntries_eq_map (entries : List (String × ParameterValue)) :
    renameEntries ρ entries = entries.map (Prod.map id (rename ρ)) := by
  induction entries with
  | nil => rw [renameEntries, List.map_nil]
  | cons entry entries ih =>
      obtain ⟨key, value⟩ := entry
      rw [renameEntries, ih]
      rfl

mutual

theorem references_rename (v : ParameterValue) :
    (v.rename ρ).references = v.references.map (ValueReference.rename ρ) := by
  cases v with
  | literal value => simp [rename, references]
  | argument ref => simp [rename, references, ValueReference.rename]
  | constant ref => simp [rename, references, ValueReference.rename]
  | function ref => simp [rename, references, ValueReference.rename]
  | list items => simpa [rename, references] using itemReferences_rename items
  | map entries => simpa [rename, references] using entryReferences_rename entries

theorem itemReferences_rename (items : List ParameterValue) :
    itemReferences (items.map (rename ρ)) =
      (itemReferences items).map (ValueReference.rename ρ) := by
  cases items with
  | nil => simp [itemReferences]
  | cons item items =>
      simp only [List.map_cons, itemReferences, List.map_append]
      rw [references_rename item, itemReferences_rename items]

theorem entryReferences_rename (entries : List (String × ParameterValue)) :
    entryReferences (entries.map (Prod.map id (rename ρ))) =
      (entryReferences entries).map (ValueReference.rename ρ) := by
  cases entries with
  | nil => simp [entryReferences]
  | cons entry entries =>
      obtain ⟨key, value⟩ := entry
      simp only [List.map_cons, Prod.map_apply, entryReferences, List.map_append]
      rw [references_rename value, entryReferences_rename entries]

end

end ParameterValue

end Lists

theorem Entries.keys_map_values {f : ParameterValue → ParameterValue}
    (entries : Entries String ParameterValue) :
    Entries.keys (entries.map (Prod.map id f)) = Entries.keys entries := by
  simp [Entries.keys, Function.comp_def]

theorem Entries.find?_map_values {f : ParameterValue → ParameterValue} (key : String)
    (entries : Entries String ParameterValue) :
    Entries.find? key (entries.map (Prod.map id f)) = (Entries.find? key entries).map f := by
  induction entries with
  | nil => rfl
  | cons entry entries ih =>
      simp only [List.map_cons, Entries.find?, ih, Prod.map_fst, Prod.map_snd, id_eq]
      split <;> rfl

/-- A registry looks only at the name of a job and its argument keys. -/
theorem JobRegistry.check_congr {registry : JobRegistry} {j k : JobLaunch} (hjob : j.job = k.job)
    (hkeys : Entries.keys j.arguments = Entries.keys k.arguments) :
    registry.check j = registry.check k := by
  have hhas : ∀ key, j.hasArgument key = k.hasArgument key := by
    intro key
    rw [Bool.eq_iff_iff]
    simp only [JobLaunch.hasArgument, Entries.has_iff, hkeys]
  simp only [check, hjob, hkeys, hhas]

namespace JobLaunch

theorem values_rename (j : JobLaunch) :
    (j.rename ρ).values = j.values.map (ParameterValue.rename ρ) := by
  obtain ⟨job, entity, offset, arguments, endpoint⟩ := j
  simp only [values, rename, ParameterValue.renameEntries_eq_map, List.map_append, List.map_map]
  congr 1
  cases endpoint with
  | none => rfl
  | some endpoint =>
      obtain ⟨address, port⟩ := endpoint
      cases port <;> simp [Endpoint.values, Endpoint.rename]

theorem check_rename (registry : JobRegistry) (j : JobLaunch) :
    registry.check (j.rename ρ) = registry.check j := by
  refine JobRegistry.check_congr rfl ?_
  rw [rename, ParameterValue.renameEntries_eq_map, Entries.keys_map_values]

end JobLaunch

namespace WaitClause

theorem references_rename (w : WaitClause) :
    (w.rename ρ).references = w.references.map (Reference.rename ρ) := by
  simp [references, rename]

end WaitClause

namespace Scenario

variable (s : Scenario)

@[simp] theorem rename_name : (s.rename ρ).name = s.name := by
  cases s
  rw [rename]

@[simp] theorem rename_description : (s.rename ρ).description = s.description := by
  cases s
  rw [rename]

@[simp] theorem rename_scope : (s.rename ρ).scope = ρ s.scope := by
  cases s
  rw [rename]

@[simp] theorem rename_parameters : (s.rename ρ).parameters = s.parameters.rename ρ := by
  cases s
  rw [rename]

@[simp] theorem rename_ids : (s.rename ρ).ids = s.ids := by
  cases s
  rw [rename]

@[simp] theorem rename_registry : (s.rename ρ).registry = s.registry := by
  cases s
  rw [rename]

@[simp] theorem rename_functions :
    (s.rename ρ).functions = s.functions.map (ScenarioFunction.rename ρ) := by
  cases s
  rw [rename, renameFunctions_eq_map]

theorem eq_rename {s t : Scenario} (hname : t.name = s.name)
    (hdescription : t.description = s.description) (hscope : t.scope = ρ s.scope)
    (hparameters : t.parameters = s.parameters.rename ρ)
    (hfunctions : t.functions = s.functions.map (ScenarioFunction.rename ρ))
    (hids : t.ids = s.ids) (hregistry : t.registry = s.registry) : t = s.rename ρ := by
  obtain ⟨name, description, scope, parameters, functions, ids, registry⟩ := s
  obtain ⟨name', description', scope', parameters', functions', ids', registry'⟩ := t
  simp only at hname hdescription hscope hparameters hfunctions hids hregistry
  rw [rename, renameFunctions_eq_map, hname, hdescription, hscope, hparameters, hfunctions, hids,
    hregistry]

theorem function?_rename (id : FunctionId) :
    (s.rename ρ).function? id = (s.function? id).map (ScenarioFunction.rename ρ) := by
  rw [function?, function?, rename_functions]
  exact Bisection.find?_map (ScenarioFunction.rename ρ) (fun _ => rfl) s.functions

end Scenario

/-- The renaming that moves one scope. -/
def moved (source target : Scope) (scope : Scope) : Scope :=
  if scope = source then target else scope

section Rescope

variable (source target : Scope)

theorem Reference.rescope_eq_rename (r : Reference) :
    r.rescope source target = r.rename (moved source target) := by
  unfold rescope rename moved
  split <;> rfl

theorem WaitClause.rescope_eq_rename (w : WaitClause) :
    w.rescope source target = w.rename (moved source target) := by
  have hreference : Reference.rescope source target = Reference.rename (moved source target) :=
    funext fun r => r.rescope_eq_rename source target
  rw [rescope, rename, hreference]

theorem ArgumentRef.rescope_eq_rename (a : ArgumentRef) :
    a.rescope source target = a.rename (moved source target) := by
  unfold rescope rename moved
  split <;> rfl

theorem ConstantRef.rescope_eq_rename (c : ConstantRef) :
    c.rescope source target = c.rename (moved source target) := by
  unfold rescope rename moved
  split <;> rfl

namespace ParameterValue

mutual

theorem rescope_eq_rename (v : ParameterValue) :
    v.rescope source target = v.rename (moved source target) := by
  cases v with
  | literal value => simp [rescope, rename]
  | argument ref => simp [rescope, rename, ref.rescope_eq_rename]
  | constant ref => simp [rescope, rename, ref.rescope_eq_rename]
  | function ref => simp [rescope, rename, ref.rescope_eq_rename]
  | list items => simp only [rescope, rename, rescopeItems_eq_renameItems items]
  | map entries => simp only [rescope, rename, rescopeEntries_eq_renameEntries entries]

theorem rescopeItems_eq_renameItems (items : List ParameterValue) :
    rescopeItems source target items = renameItems (moved source target) items := by
  cases items with
  | nil => simp [rescopeItems]
  | cons item items =>
      simp only [rescopeItems, renameItems]
      rw [rescope_eq_rename item, rescopeItems_eq_renameItems items]

theorem rescopeEntries_eq_renameEntries (entries : List (String × ParameterValue)) :
    rescopeEntries source target entries = renameEntries (moved source target) entries := by
  cases entries with
  | nil => simp [rescopeEntries]
  | cons entry entries =>
      obtain ⟨key, value⟩ := entry
      simp only [rescopeEntries, renameEntries]
      rw [rescope_eq_rename value, rescopeEntries_eq_renameEntries entries]

end

end ParameterValue

theorem JobLaunch.rescope_eq_rename (j : JobLaunch) :
    j.rescope source target = j.rename (moved source target) := by
  have hvalue : ParameterValue.rescope source target =
      ParameterValue.rename (moved source target) :=
    funext fun v => v.rescope_eq_rename source target
  have hendpoint : Endpoint.rescope source target = Endpoint.rename (moved source target) := by
    funext e
    rw [Endpoint.rescope, Endpoint.rename, hvalue]
  rw [rescope, rename, hendpoint, ParameterValue.rescopeEntries_eq_renameEntries]

end Rescope

end Orchestration
