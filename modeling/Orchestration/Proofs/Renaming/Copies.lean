import Mathlib.Logic.Equiv.Basic
import Orchestration.Proofs.Scenario.Copy
import Orchestration.Proofs.Scenario.Values

/-!
Copies as renamings. A copy of a scenario that only refers to itself is the scenario under other
scopes, and copying commutes with renaming where the renaming respects the scopes that copies get.
-/

namespace Orchestration

theorem moved_self (source target : Scope) : moved source target source = target := if_pos rfl

theorem comp_moved {ρ : Scope → Scope} (hρ : Function.Injective ρ) (source target : Scope) :
    ρ ∘ moved source target = moved (ρ source) (ρ target) ∘ ρ := by
  funext scope
  simp only [Function.comp_apply, moved, hρ.eq_iff]
  exact apply_ite ρ _ _ _

section Composition

variable (ρ σ : Scope → Scope)

theorem WaitClause.rename_rename (w : WaitClause) :
    (w.rename σ).rename ρ = w.rename (ρ ∘ σ) := by
  simp [rename, Function.comp_def, Reference.rename]

namespace ParameterValue

mutual

theorem rename_rename (v : ParameterValue) : (v.rename σ).rename ρ = v.rename (ρ ∘ σ) := by
  cases v with
  | literal value => simp [rename]
  | argument ref => simp [rename, ArgumentRef.rename]
  | constant ref => simp [rename, ConstantRef.rename]
  | function ref => simp [rename, Reference.rename]
  | list items => simp only [rename, renameItems_renameItems items]
  | map entries => simp only [rename, renameEntries_renameEntries entries]

theorem renameItems_renameItems (items : List ParameterValue) :
    renameItems ρ (renameItems σ items) = renameItems (ρ ∘ σ) items := by
  cases items with
  | nil => simp
  | cons item items =>
      simp only [renameItems]
      rw [rename_rename item, renameItems_renameItems items]

theorem renameEntries_renameEntries (entries : List (String × ParameterValue)) :
    renameEntries ρ (renameEntries σ entries) = renameEntries (ρ ∘ σ) entries := by
  cases entries with
  | nil => simp
  | cons entry entries =>
      obtain ⟨key, value⟩ := entry
      simp only [renameEntries]
      rw [rename_rename value, renameEntries_renameEntries entries]

end

end ParameterValue

theorem JobLaunch.rename_rename (j : JobLaunch) : (j.rename σ).rename ρ = j.rename (ρ ∘ σ) := by
  have hendpoint : ∀ e : Endpoint, (e.rename σ).rename ρ = e.rename (ρ ∘ σ) := by
    rintro ⟨address, port⟩
    cases port <;> simp [Endpoint.rename, ParameterValue.rename_rename]
  simp only [rename, ParameterValue.renameEntries_renameEntries]
  cases j.endpoint with
  | none => rfl
  | some endpoint => simp only [Option.map_some, hendpoint]

end Composition

section Agreement

variable {ρ σ : Scope → Scope}

theorem Reference.rename_congr {r : Reference} (h : ρ r.scope = σ r.scope) :
    r.rename ρ = r.rename σ := by
  rw [rename, rename, h]

theorem WaitClause.rename_congr {w : WaitClause} (h : ∀ r ∈ w.references, ρ r.scope = σ r.scope) :
    w.rename ρ = w.rename σ := by
  have hfinished : w.finished.map (Reference.rename ρ) = w.finished.map (Reference.rename σ) :=
    List.map_congr_left fun r hr => Reference.rename_congr (h r (List.mem_append_left _ hr))
  have hlaunched : w.launched.map (Reference.rename ρ) = w.launched.map (Reference.rename σ) :=
    List.map_congr_left fun r hr => Reference.rename_congr (h r (List.mem_append_right _ hr))
  rw [rename, rename, hfinished, hlaunched]

/-- The scope of the scenario that a reference inside a value was given out by. -/
def ValueReference.scope : ValueReference → Scope
  | .argument a => a.scope
  | .constant c => c.scope
  | .function r => r.scope

namespace ParameterValue

mutual

theorem rename_congr (v : ParameterValue) (h : ∀ r ∈ v.references, ρ r.scope = σ r.scope) :
    v.rename ρ = v.rename σ := by
  cases v with
  | literal value => simp [rename]
  | argument ref =>
      have hscope : ρ ref.scope = σ ref.scope := h (.argument ref) (by simp [references])
      simp [rename, ArgumentRef.rename, hscope]
  | constant ref =>
      have hscope : ρ ref.scope = σ ref.scope := h (.constant ref) (by simp [references])
      simp [rename, ConstantRef.rename, hscope]
  | function ref =>
      have hscope : ρ ref.scope = σ ref.scope := h (.function ref) (by simp [references])
      simp [rename, Reference.rename, hscope]
  | list items => simp only [rename, renameItems_congr items h]
  | map entries => simp only [rename, renameEntries_congr entries h]

theorem renameItems_congr (items : List ParameterValue)
    (h : ∀ r ∈ itemReferences items, ρ r.scope = σ r.scope) :
    renameItems ρ items = renameItems σ items := by
  cases items with
  | nil => simp
  | cons item items =>
      rw [itemReferences, List.forall_mem_append] at h
      simp only [renameItems]
      rw [rename_congr item h.1, renameItems_congr items h.2]

theorem renameEntries_congr (entries : List (String × ParameterValue))
    (h : ∀ r ∈ entryReferences entries, ρ r.scope = σ r.scope) :
    renameEntries ρ entries = renameEntries σ entries := by
  cases entries with
  | nil => simp
  | cons entry entries =>
      obtain ⟨key, value⟩ := entry
      rw [entryReferences, List.forall_mem_append] at h
      simp only [renameEntries]
      rw [rename_congr value h.1, renameEntries_congr entries h.2]

end

end ParameterValue

theorem JobLaunch.rename_congr {j : JobLaunch}
    (h : ∀ v ∈ j.values, ∀ r ∈ v.references, ρ r.scope = σ r.scope) :
    j.rename ρ = j.rename σ := by
  have harguments : ParameterValue.renameEntries ρ j.arguments =
      ParameterValue.renameEntries σ j.arguments := by
    apply ParameterValue.renameEntries_congr
    intro r hr
    obtain ⟨entry, hentry, hr⟩ := ParameterValue.mem_entryReferences.mp hr
    exact h entry.2 (List.mem_append_left _ (List.mem_map_of_mem hentry)) r hr
  have hendpoint : j.endpoint.map (Endpoint.rename ρ) = j.endpoint.map (Endpoint.rename σ) := by
    refine Option.map_congr fun e he => ?_
    have hvalues : ∀ v ∈ e.values, v.rename ρ = v.rename σ := by
      intro v hv
      apply ParameterValue.rename_congr
      exact h v (List.mem_append_right _ (by simpa [he] using hv))
    have hport : e.port.map (ParameterValue.rename ρ) = e.port.map (ParameterValue.rename σ) :=
      Option.map_congr fun port hp => hvalues port (by simp [Endpoint.values, hp])
    rw [Endpoint.rename, Endpoint.rename, hvalues e.address (by simp [Endpoint.values]), hport]
  rw [rename, rename, harguments, hendpoint]

end Agreement

/-- The scopes below a scope in its tree, the scope itself among them. -/
def Scope.below (scope : Scope) (ids : List FunctionId) : Scope := ⟨ids ++ scope.path⟩

/-- The renaming takes the tree below a scope to the tree below another one. -/
def KeepsBelow (ρ : Scope → Scope) (scope : Scope) : Prop :=
  ∀ ids, ρ (scope.below ids) = (ρ scope).below ids

theorem KeepsBelow.child {ρ : Scope → Scope} {scope : Scope} (h : KeepsBelow ρ scope)
    (id : FunctionId) :
    ρ (scope.child id) = (ρ scope).child id ∧ KeepsBelow ρ (scope.child id) := by
  have hchild : ρ (scope.child id) = (ρ scope).child id := h [id]
  refine ⟨hchild, fun ids => ?_⟩
  have hbelow : ∀ other : Scope, (other.child id).below ids = other.below (ids ++ [id]) := by
    intro other
    simp [Scope.below, Scope.child]
  rw [hchild, hbelow, hbelow]
  exact h (ids ++ [id])

namespace Scenario

@[simp] theorem copy_name (s : Scenario) (target : Scope) : (s.copy target).name = s.name := by
  cases s
  rw [copy]

@[simp] theorem copy_description (s : Scenario) (target : Scope) :
    (s.copy target).description = s.description := by
  cases s
  rw [copy]

variable {ρ : Scope → Scope}

theorem copy_rename (hρ : Function.Injective ρ) (s : Scenario) {target : Scope}
    (htarget : KeepsBelow ρ target) :
    (s.rename ρ).copy (ρ target) = (s.copy target).rename ρ := by
  induction s using induction_on generalizing target with
  | step s ih =>
      have hcomp := comp_moved hρ s.scope target
      have hreference : ∀ r : Reference, (r.rename ρ).rename (moved (ρ s.scope) (ρ target)) =
          (r.rename (moved s.scope target)).rename ρ :=
        fun r => congrArg (fun scope => (⟨scope, r.host, r.id⟩ : Reference))
          (congrFun hcomp r.scope).symm
      have hpayload : ∀ f ∈ s.functions,
          copyPayload (ρ s.scope) (ρ target) f.id (renamePayload ρ f.payload) =
            renamePayload ρ (copyPayload s.scope target f.id f.payload) := by
        intro f hf
        cases hp : f.payload with
        | startJob job =>
            simp only [renamePayload, copyPayload, JobLaunch.rescope_eq_rename,
              JobLaunch.rename_rename, hcomp]
        | stopJobs targets =>
            simp [renamePayload, copyPayload, Reference.rescope_eq_rename, hreference]
        | startScenario inner bindings =>
            obtain ⟨hchild, hkeeps⟩ := htarget.child f.id
            simp only [renamePayload, copyPayload,
              ParameterValue.rescopeEntries_eq_renameEntries,
              ParameterValue.renameEntries_renameEntries, hcomp, ← hchild,
              ih inner ⟨f, hf, bindings, hp⟩ hkeeps]
        | stopScenario r =>
            simp [renamePayload, copyPayload, Reference.rescope_eq_rename, hreference]
      apply eq_rename
      case hfunctions =>
        rw [copy_functions, rename_functions, copy_functions, List.map_map, List.map_map,
          rename_scope]
        apply List.map_congr_left
        intro f hf
        simp only [Function.comp_apply, ScenarioFunction.copy, ScenarioFunction.rename,
          hpayload f hf, WaitClause.rescope_eq_rename, WaitClause.rename_rename, hcomp]
      all_goals simp [ParameterTable.rescope, ParameterTable.rename]

end Scenario

mutual

/-- The scopes of the scenario and of everything embedded in it, as they are met. -/
def Scenario.scopes : Scenario → List Scope
  | ⟨_, _, scope, _, functions, _, _⟩ => scope :: functionScopes functions

def functionScopes : List ScenarioFunction → List Scope
  | [] => []
  | ⟨_, payload, _⟩ :: rest => payloadScopes payload ++ functionScopes rest

def payloadScopes : Payload → List Scope
  | .startScenario inner _ => inner.scopes
  | _ => []

end

theorem functionScopes_eq_flatMap (functions : List ScenarioFunction) :
    functionScopes functions = functions.flatMap fun f => payloadScopes f.payload := by
  induction functions with
  | nil => simp [functionScopes]
  | cons f rest ih =>
      obtain ⟨id, payload, wait⟩ := f
      rw [functionScopes, ih, List.flatMap_cons]

/-- Blocks of equal lengths that make up the same list are the same. -/
theorem eq_of_flatMap_eq {α β : Type} {xs : List α} {f g : α → List β}
    (hlength : ∀ x ∈ xs, (f x).length = (g x).length) (h : xs.flatMap f = xs.flatMap g) :
    ∀ x ∈ xs, f x = g x := by
  induction xs with
  | nil => simp
  | cons x xs ih =>
      rw [List.forall_mem_cons] at hlength
      obtain ⟨hx, hxs⟩ := List.append_inj (by simpa using h) hlength.1
      exact List.forall_mem_cons.mpr ⟨hx, ih hlength.2 hxs⟩

namespace Scenario

variable {ρ : Scope → Scope}

theorem scopes_eq (s : Scenario) :
    s.scopes = s.scope :: s.functions.flatMap fun f => payloadScopes f.payload := by
  cases s
  rw [scopes, functionScopes_eq_flatMap]

theorem scopes_copy_eq (s : Scenario) (target : Scope) :
    (s.copy target).scopes = target :: s.functions.flatMap fun f =>
      payloadScopes (copyPayload s.scope target f.id f.payload) := by
  rw [scopes_eq, copy_scope, copy_functions, List.flatMap_map]
  rfl

theorem length_scopes_copy (s : Scenario) (target : Scope) :
    (s.copy target).scopes.length = s.scopes.length := by
  induction s using induction_on generalizing target with
  | step s ih =>
      have hpayload : ∀ f ∈ s.functions,
          (payloadScopes (copyPayload s.scope target f.id f.payload)).length =
            (payloadScopes f.payload).length := by
        intro f hf
        cases hp : f.payload with
        | startScenario inner bindings =>
            simpa only [copyPayload, payloadScopes] using
              ih inner ⟨f, hf, bindings, hp⟩ (target.child f.id)
        | startJob _ | stopJobs _ | stopScenario _ => simp only [copyPayload, payloadScopes]
      rw [scopes_copy_eq, scopes_eq, List.length_cons, List.length_cons, List.length_flatMap,
        List.length_flatMap, List.map_congr_left hpayload]

/-- What a scenario holds was given out by it. -/
theorem Holds.scope_eq {s : Scenario} {r : ValueReference} (h : s.Holds r)
    (htable : s.parameters.scope = s.scope) : r.scope = s.scope := by
  cases r with
  | argument a => exact h.1.trans htable
  | constant c => exact h.1.trans htable
  | function r =>
      obtain ⟨f, hf⟩ := h
      exact hf.1

/-- The copy of a scenario that is intact is the scenario under the scopes of the copy. -/
theorem Everywhere.copy_eq_rename {s : Scenario} (h : s.Everywhere Intact) {target : Scope}
    (hρ : s.scopes.map ρ = (s.copy target).scopes) : s.copy target = s.rename ρ := by
  induction h generalizing target with
  | @intro s here _ ih =>
      rw [scopes_eq, scopes_copy_eq, List.map_cons, List.map_flatMap] at hρ
      obtain ⟨hscope, hblocks⟩ := List.cons.inj hρ
      -- Whatever stands in the scenario was given out by it, so only its own scope is moved.
      have hown : ∀ {scope : Scope}, scope = s.scope → moved s.scope target scope = ρ scope := by
        rintro _ rfl
        rw [moved_self, hscope]
      have hreference : ∀ r : Reference, r.scope = s.scope →
          r.rename (moved s.scope target) = r.rename ρ :=
        fun r hr => Reference.rename_congr (hown hr)
      have hvalue : ∀ v : ParameterValue, s.HoldsAll v → ∀ r ∈ v.references,
          moved s.scope target r.scope = ρ r.scope :=
        fun v hv r hr => hown ((hv r hr).scope_eq here.table)
      have hentries : ∀ entries : Entries String ParameterValue,
          (∀ entry ∈ entries, s.HoldsAll entry.2) →
          ParameterValue.renameEntries (moved s.scope target) entries =
            ParameterValue.renameEntries ρ entries := by
        intro entries hheld
        apply ParameterValue.renameEntries_congr
        intro r hr
        obtain ⟨entry, hentry, hr⟩ := ParameterValue.mem_entryReferences.mp hr
        exact hvalue entry.2 (hheld entry hentry) r hr
      have hinner : ∀ f ∈ s.functions, ∀ inner bindings, f.payload = .startScenario inner bindings →
          inner.copy (target.child f.id) = inner.rename ρ := by
        intro f hf inner bindings hp
        refine ih inner ⟨f, hf, bindings, hp⟩ ?_
        have hblock := eq_of_flatMap_eq ?_ hblocks f hf
        · simpa only [hp, copyPayload, payloadScopes] using hblock
        · intro g _
          cases hg : g.payload with
          | startScenario other values =>
              simp only [copyPayload, payloadScopes, List.length_map, length_scopes_copy]
          | startJob _ | stopJobs _ | stopScenario _ => simp only [copyPayload, payloadScopes,
              List.map_nil]
      have hpayload : ∀ f ∈ s.functions,
          copyPayload s.scope target f.id f.payload = renamePayload ρ f.payload := by
        intro f hf
        have hadmits := here.payloads f hf
        cases hp : f.payload with
        | startJob job =>
            rw [hp] at hadmits
            rw [copyPayload, renamePayload, JobLaunch.rescope_eq_rename,
              JobLaunch.rename_congr fun v hv => hvalue v (hadmits.2 v hv)]
        | stopJobs targets =>
            rw [hp] at hadmits
            rw [copyPayload, renamePayload]
            refine congrArg _ (List.map_congr_left fun r hr => ?_)
            obtain ⟨-, f, hf, -⟩ := hadmits r hr
            rw [Reference.rescope_eq_rename, hreference r hf.1]
        | startScenario inner bindings =>
            rw [hp] at hadmits
            rw [copyPayload, renamePayload, ParameterValue.rescopeEntries_eq_renameEntries,
              hentries bindings hadmits.held, hinner f hf inner bindings hp]
        | stopScenario r =>
            rw [hp] at hadmits
            obtain ⟨-, f, hf, -⟩ := hadmits
            rw [copyPayload, renamePayload, Reference.rescope_eq_rename, hreference r hf.1]
      apply eq_rename
      case hfunctions =>
        rw [copy_functions]
        refine List.map_congr_left fun f hf => ?_
        have hwait : f.wait.rescope s.scope target = f.wait.rename ρ := by
          rw [WaitClause.rescope_eq_rename]
          refine WaitClause.rename_congr fun r hr => ?_
          obtain ⟨g, hg⟩ := here.waits f hf r hr
          exact hown hg.1
        rw [ScenarioFunction.copy, ScenarioFunction.rename, hpayload f hf, hwait]
      all_goals simp [ParameterTable.rescope, ParameterTable.rename, hscope, here.table]

end Scenario

end Orchestration
