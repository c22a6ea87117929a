import Orchestration.Proofs.Renaming.Basic
import Orchestration.Proofs.Scenario.Coherence
import Orchestration.Scenario.Copy

namespace Orchestration

theorem Scope.child_ne (scope : Scope) (id : FunctionId) : scope.child id ≠ scope := by
  intro h
  have hpath := congrArg Scope.path h
  simp [child] at hpath

section Rescope

variable {source target : Scope}

theorem Reference.rescope_host (r : Reference) : (r.rescope source target).host = r.host := by
  unfold rescope
  split <;> rfl

theorem Reference.rescope_id (r : Reference) : (r.rescope source target).id = r.id := by
  unfold rescope
  split <;> rfl

theorem Reference.rescope_outerId (r : Reference) :
    (r.rescope source target).outerId = r.outerId := by
  rw [outerId, rescope_host, rescope_id, outerId]

theorem Reference.rescope_scope {r : Reference} (h : r.scope = source) :
    (r.rescope source target).scope = target := by
  rw [rescope, if_pos h]

theorem WaitClause.references_rescope (w : WaitClause) :
    (w.rescope source target).references =
      w.references.map (Reference.rescope source target) := by
  simp [references, rescope]

def ValueReference.rescope (source target : Scope) : ValueReference → ValueReference
  | .argument a => .argument (a.rescope source target)
  | .constant c => .constant (c.rescope source target)
  | .function r => .function (r.rescope source target)

theorem ValueReference.rescope_isFunction (r : ValueReference) :
    (r.rescope source target).isFunction = r.isFunction := by
  cases r <;> rfl

theorem ValueReference.rescope_eq_rename (r : ValueReference) :
    r.rescope source target = r.rename (moved source target) := by
  cases r with
  | argument a => rw [rescope, rename, a.rescope_eq_rename]
  | constant c => rw [rescope, rename, c.rescope_eq_rename]
  | function r => rw [rescope, rename, r.rescope_eq_rename]

namespace ParameterValue

theorem references_rescope (v : ParameterValue) :
    (v.rescope source target).references =
      v.references.map (ValueReference.rescope source target) := by
  rw [rescope_eq_rename, references_rename]
  exact List.map_congr_left fun r _ => r.rescope_eq_rename.symm

theorem rescopeEntries_eq_map (entries : List (String × ParameterValue)) :
    rescopeEntries source target entries =
      entries.map fun entry => (entry.1, entry.2.rescope source target) := by
  induction entries with
  | nil => rfl
  | cons entry entries ih => simp [rescopeEntries, ih]

end ParameterValue

theorem JobLaunch.rescope_values (j : JobLaunch) :
    (j.rescope source target).values =
      j.values.map (ParameterValue.rescope source target) := by
  rw [rescope_eq_rename, values_rename]
  exact List.map_congr_left fun v _ => (v.rescope_eq_rename source target).symm

theorem JobLaunch.rescope_check (registry : JobRegistry) (j : JobLaunch) :
    registry.check (j.rescope source target) = registry.check j := by
  rw [rescope_eq_rename, check_rename]

end Rescope

def ScenarioFunction.copy (source target : Scope) (f : ScenarioFunction) : ScenarioFunction :=
  ⟨f.id, copyPayload source target f.id f.payload, f.wait.rescope source target⟩

theorem copyFunctions_eq_map (source target : Scope) (functions : List ScenarioFunction) :
    copyFunctions source target functions =
      functions.map (ScenarioFunction.copy source target) := by
  induction functions with
  | nil => simp [copyFunctions]
  | cons f rest ih =>
      obtain ⟨id, payload, wait⟩ := f
      simp [copyFunctions, ScenarioFunction.copy, ih]

theorem ScenarioFunction.copy_kind (source target : Scope) (f : ScenarioFunction) :
    (f.copy source target).kind = f.kind := by
  obtain ⟨id, payload, wait⟩ := f
  cases payload <;> simp [copy, kind, copyPayload, Payload.kind]

namespace Scenario

variable (s : Scenario) (target : Scope)

@[simp] theorem copy_scope : (s.copy target).scope = target := by
  cases s
  rw [copy]

@[simp] theorem copy_parameters : (s.copy target).parameters = s.parameters.rescope target := by
  cases s
  rw [copy]

@[simp] theorem copy_ids : (s.copy target).ids = s.ids := by
  cases s
  rw [copy]

@[simp] theorem copy_registry : (s.copy target).registry = s.registry := by
  cases s
  rw [copy]

@[simp] theorem copy_functions :
    (s.copy target).functions = s.functions.map (ScenarioFunction.copy s.scope target) := by
  cases s
  rw [copy, copyFunctions_eq_map]

theorem copy_function? (id : FunctionId) :
    (s.copy target).function? id =
      (s.function? id).map (ScenarioFunction.copy s.scope target) := by
  rw [function?, function?, copy_functions]
  exact Bisection.find?_map (ScenarioFunction.copy s.scope target) (fun _ => rfl) s.functions

variable {s}

theorem starts_copy {inner : Scenario} (h : (s.copy target).Starts inner) :
    ∃ original id, s.Starts original ∧ inner = original.copy (target.child id) := by
  obtain ⟨f, hf, bindings, hpayload⟩ := h
  rw [copy_functions] at hf
  obtain ⟨g, hg, rfl⟩ := List.mem_map.mp hf
  cases hp : g.payload with
  | startScenario original values =>
      simp only [ScenarioFunction.copy, hp, copyPayload, Payload.startScenario.injEq] at hpayload
      exact ⟨original, g.id, ⟨g, hg, values, hp⟩, hpayload.1.symm⟩
  | startJob _ | stopJobs _ | stopScenario _ =>
      simp [ScenarioFunction.copy, hp, copyPayload] at hpayload

theorem Names.copy {r : Reference} {f : ScenarioFunction} (h : s.Names r f) :
    ∃ g, (s.copy target).Names (r.rescope s.scope target) g ∧ g.kind = f.kind := by
  obtain ⟨hscope, hf⟩ := h
  have hscope' : (r.rescope s.scope target).scope = (s.copy target).scope := by
    rw [Reference.rescope_scope hscope, copy_scope]
  unfold Names
  rw [Reference.rescope_host, Reference.rescope_id]
  cases hhost : r.host with
  | none =>
      rw [hhost] at hf
      refine ⟨f.copy s.scope target, ⟨hscope', ?_⟩, f.copy_kind _ _⟩
      simp only [copy_function?, hf, Option.map_some]
  | some host =>
      rw [hhost] at hf
      obtain ⟨h, inner, bindings, hfind, hpayload, hinner⟩ := hf
      refine ⟨f.copy inner.scope (target.child h.id), ⟨hscope', ?_⟩, f.copy_kind _ _⟩
      refine ⟨h.copy s.scope target, inner.copy (target.child h.id),
        ParameterValue.rescopeEntries s.scope target bindings, ?_, ?_, ?_⟩
      · rw [copy_function?, hfind, Option.map_some]
      · simp only [ScenarioFunction.copy, hpayload, copyPayload]
      · rw [copy_function?, hinner, Option.map_some]

theorem Resolves.copy {r : Reference} (h : s.Resolves r) :
    (s.copy target).Resolves (r.rescope s.scope target) := by
  obtain ⟨f, hf⟩ := h
  obtain ⟨g, hg, -⟩ := hf.copy target
  exact ⟨g, hg⟩

theorem NamesOwn.copy {kind : FunctionKind} {r : Reference} (h : s.NamesOwn kind r) :
    (s.copy target).NamesOwn kind (r.rescope s.scope target) := by
  obtain ⟨hhost, f, hf, hkind⟩ := h
  obtain ⟨g, hg, hkind'⟩ := hf.copy target
  exact ⟨by rw [Reference.rescope_host, hhost], g, hg, hkind'.trans hkind⟩

theorem Holds.copy (htable : s.parameters.scope = s.scope) {r : ValueReference} (h : s.Holds r) :
    (s.copy target).Holds (r.rescope s.scope target) := by
  cases r with
  | argument a =>
      have hscope : a.scope = s.scope := h.1.trans htable
      rw [ValueReference.rescope, ArgumentRef.rescope, if_pos hscope]
      exact ⟨by simp [ParameterTable.rescope], by
        simpa [ParameterTable.rescope, ParameterTable.argument?] using h.2⟩
  | constant c =>
      have hscope : c.scope = s.scope := h.1.trans htable
      rw [ValueReference.rescope, ConstantRef.rescope, if_pos hscope]
      exact ⟨by simp [ParameterTable.rescope], by
        simpa [ParameterTable.rescope, ParameterTable.constant?] using h.2⟩
  | function r => exact Resolves.copy target h

theorem HoldsAll.copy (htable : s.parameters.scope = s.scope) {value : ParameterValue}
    (h : s.HoldsAll value) : (s.copy target).HoldsAll (value.rescope s.scope target) := by
  intro r hr
  rw [ParameterValue.references_rescope] at hr
  obtain ⟨original, horiginal, rfl⟩ := List.mem_map.mp hr
  exact (h original horiginal).copy target htable

theorem Admits.copy (htable : s.parameters.scope = s.scope) {p : Payload} (h : s.Admits p)
    (id : FunctionId) : (s.copy target).Admits (copyPayload s.scope target id p) := by
  cases p with
  | startJob job =>
      rw [copyPayload]
      constructor
      · rw [copy_registry, JobLaunch.rescope_check]
        exact h.1
      · intro v hv
        rw [JobLaunch.rescope_values] at hv
        obtain ⟨original, horiginal, rfl⟩ := List.mem_map.mp hv
        exact (h.2 original horiginal).copy target htable
  | stopJobs targets =>
      rw [copyPayload]
      intro r hr
      obtain ⟨original, horiginal, rfl⟩ := List.mem_map.mp hr
      exact (h original horiginal).copy target
  | startScenario inner bindings =>
      obtain ⟨-, hcomplete, hdeclared, hfree, hheld⟩ := h
      rw [copyPayload, ParameterValue.rescopeEntries_eq_map]
      refine ⟨?_, ?_, ?_, ?_, ?_⟩
      · rw [copy_scope, copy_scope]
        exact target.child_ne id
      · simpa [ParameterTable.required, ParameterTable.rescope, Entries.keys, Function.comp_def]
          using hcomplete
      · intro b hb
        obtain ⟨original, horiginal, rfl⟩ := List.mem_map.mp hb
        simpa [ParameterTable.rescope, ParameterTable.argument?] using
          hdeclared original horiginal
      · intro b hb r hr
        obtain ⟨original, horiginal, rfl⟩ := List.mem_map.mp hb
        rw [ParameterValue.references_rescope] at hr
        obtain ⟨ref, href, rfl⟩ := List.mem_map.mp hr
        rw [ValueReference.rescope_isFunction]
        exact hfree original horiginal ref href
      · intro b hb
        obtain ⟨original, horiginal, rfl⟩ := List.mem_map.mp hb
        exact (hheld original horiginal).copy target htable
  | stopScenario r =>
      rw [copyPayload]
      exact NamesOwn.copy target h

theorem Intact.copy (h : s.Intact) : (s.copy target).Intact := by
  have hids : (s.copy target).functions.map ScenarioFunction.id =
      s.functions.map ScenarioFunction.id := by
    simp [ScenarioFunction.copy, Function.comp_def]
  refine ⟨⟨?_, ?_, ?_, ?_, ?_⟩, ?_, ?_, ?_⟩
  · simpa [ParameterTable.uses, ParameterTable.rescope] using h.names
  · rw [hids]
    exact h.ids
  · intro f hf r hr
    rw [copy_functions] at hf
    obtain ⟨g, hg, rfl⟩ := List.mem_map.mp hf
    rw [ScenarioFunction.copy, WaitClause.references_rescope] at hr
    obtain ⟨original, horiginal, rfl⟩ := List.mem_map.mp hr
    exact (h.waits g hg original horiginal).copy target
  · intro f hf
    rw [copy_functions] at hf
    obtain ⟨g, hg, rfl⟩ := List.mem_map.mp hf
    exact (h.payloads g hg).copy target h.table g.id
  · obtain ⟨rank, hrank⟩ := h.ranked
    refine ⟨rank, ?_⟩
    intro f hf r hr
    rw [copy_functions] at hf
    obtain ⟨g, hg, rfl⟩ := List.mem_map.mp hf
    rw [ScenarioFunction.copy, WaitClause.references_rescope] at hr
    obtain ⟨original, horiginal, rfl⟩ := List.mem_map.mp hr
    rw [Reference.rescope_outerId]
    exact hrank g hg original horiginal
  · rw [copy_parameters, copy_scope, ParameterTable.rescope]
  · rw [hids, h.dense, copy_functions, List.length_map]
  · rw [copy_ids, h.next, copy_functions, List.length_map]

/-- A copy is intact at every depth where the original is. -/
theorem everywhere_intact_copy (h : s.Everywhere Intact) :
    (s.copy target).Everywhere Intact := by
  induction h generalizing target with
  | intro here _ ih =>
      refine .intro (here.copy target) ?_
      intro inner hstarts
      obtain ⟨original, id, horiginal, rfl⟩ := starts_copy target hstarts
      exact ih original horiginal (target.child id)

end Scenario

end Orchestration
