import Orchestration.Proofs.Scenario.Outline
import Orchestration.Proofs.WaitGraph.Acyclic

/-!
Well-formed scenarios, of whatever origin. What it takes to be well formed is said by membership
alone. The check looks functions up by halving, which tells nothing where ids do not ascend, and it
does so before it has seen that they ascend; a scenario that passes is well formed all the same.
-/

namespace Orchestration

namespace Scenario

/-- The reference points at the function `f`, one of the scenario itself or, under a host, one of
the scenario that the host starts. -/
def PointsAt (s : Scenario) (r : Reference) (f : ScenarioFunction) : Prop :=
  r.scope = s.scope ∧ f.id = r.id ∧
    match r.host with
    | none => f ∈ s.functions
    | some host => ∃ h ∈ s.functions, h.id = host ∧ ∃ inner bindings,
        h.payload = .startScenario inner bindings ∧ f ∈ inner.functions

/-- What a reference inside a value names is in this scenario. -/
def Contains (s : Scenario) : ValueReference → Prop
  | .argument a => a.scope = s.parameters.scope ∧
      a.name ∈ s.parameters.arguments.map Argument.name
  | .constant c => c.scope = s.parameters.scope ∧
      c.name ∈ s.parameters.constants.map Constant.name
  | .function r => ∃ f, s.PointsAt r f

/-- The reference points at a function of a kind, of the scenario itself. -/
def PointsAtOwn (s : Scenario) (kind : FunctionKind) (r : Reference) : Prop :=
  r.host = none ∧ ∃ f, s.PointsAt r f ∧ f.kind = kind

/-- The scenario may start the other one with these values: every argument without a default has
one, every value is for an argument, and the values are in the terms of the starting scenario and
hold no functions. -/
structure Embeds (s inner : Scenario) (bindings : Entries String ParameterValue) : Prop where
  scope_ne : inner.scope ≠ s.scope
  complete : inner.parameters.Complete (Entries.keys bindings)
  declared : ∀ b ∈ bindings, b.1 ∈ inner.parameters.arguments.map Argument.name
  functionFree : ∀ b ∈ bindings, ∀ r ∈ b.2.references, r.isFunction = false
  contained : ∀ b ∈ bindings, ∀ r ∈ b.2.references, s.Contains r

/-- What a function may do in a scenario. -/
def Allows (s : Scenario) : Payload → Prop
  | .startJob job => s.registry.check job = .ok () ∧
      ∀ v ∈ job.values, ∀ r ∈ v.references, s.Contains r
  | .stopJobs targets => ∀ r ∈ targets, s.PointsAtOwn .startJob r
  | .startScenario inner bindings => s.Embeds inner bindings
  | .stopScenario target => s.PointsAtOwn .startScenario target

/-- One level of a scenario is well formed. -/
structure WellFormed (s : Scenario) : Prop where
  names : (s.parameters.arguments.map Argument.name ++
    s.parameters.constants.map Constant.name).Nodup
  ids : (s.functions.map ScenarioFunction.id).Pairwise (· < ·)
  waits : ∀ f ∈ s.functions, ∀ r ∈ f.wait.references, ∃ target, s.PointsAt r target
  payloads : ∀ f ∈ s.functions, s.Allows f.payload
  acyclic : Acyclic (WaitsFor s.functions none)

theorem function?_eq_some_iff {s : Scenario}
    (hids : (s.functions.map ScenarioFunction.id).Pairwise (· < ·)) {id : FunctionId}
    {f : ScenarioFunction} : s.function? id = some f ↔ f ∈ s.functions ∧ f.id = id := by
  constructor
  · exact mem_of_function?
  · rintro ⟨hf, rfl⟩
    exact function?_of_mem hids hf

namespace Searchable

variable {s : Scenario} (hs : s.Searchable)

include hs

theorem ids_nodup : (s.functions.map ScenarioFunction.id).Nodup := hs.here.imp Nat.ne_of_lt

theorem names_iff {r : Reference} {f : ScenarioFunction} : s.Names r f ↔ s.PointsAt r f := by
  obtain ⟨scope, host, id⟩ := r
  cases host with
  | none =>
      simp only [Names, PointsAt, function?_eq_some_iff hs.here]
      tauto
  | some host =>
      simp only [Names, PointsAt]
      constructor
      · rintro ⟨hscope, h, inner, bindings, hhost, hpayload, hf⟩
        obtain ⟨hmem, rfl⟩ := mem_of_function? hhost
        obtain ⟨hin, rfl⟩ := mem_of_function? hf
        exact ⟨hscope, rfl, h, hmem, rfl, inner, bindings, hpayload, hin⟩
      · rintro ⟨hscope, rfl, h, hmem, rfl, inner, bindings, hpayload, hin⟩
        have hinner := hs.inside inner ⟨h, hmem, bindings, hpayload⟩
        exact ⟨hscope, h, inner, bindings, function?_of_mem hs.here hmem, hpayload,
          function?_of_mem hinner hin⟩

theorem resolves_iff {r : Reference} : s.Resolves r ↔ ∃ f, s.PointsAt r f := by
  simp only [Resolves, hs.names_iff]

theorem holds_iff {r : ValueReference} : s.Holds r ↔ s.Contains r := by
  cases r with
  | argument a => rw [Holds, Contains, ParameterTable.argument?_isSome_iff]
  | constant c => rw [Holds, Contains, ParameterTable.constant?_isSome_iff]
  | function r => exact hs.resolves_iff

theorem holdsAll_iff {value : ParameterValue} :
    s.HoldsAll value ↔ ∀ r ∈ value.references, s.Contains r := by
  simp only [HoldsAll, hs.holds_iff]

theorem namesOwn_iff {kind : FunctionKind} {r : Reference} :
    s.NamesOwn kind r ↔ s.PointsAtOwn kind r := by
  simp only [NamesOwn, PointsAtOwn, hs.names_iff]

theorem binds_iff {inner : Scenario} {bindings : Entries String ParameterValue} :
    s.Binds inner bindings ↔ s.Embeds inner bindings := by
  have hcomplete : (∀ a ∈ inner.parameters.required, a.name ∈ Entries.keys bindings) ↔
      inner.parameters.Complete (Entries.keys bindings) := by
    simp [ParameterTable.required, ParameterTable.Complete, Argument.isRequired]
  constructor
  · intro h
    refine ⟨h.scope_ne, hcomplete.mp h.complete, ?_, h.functionFree, ?_⟩
    · exact fun b hb => ParameterTable.argument?_isSome_iff.mp (h.declared b hb)
    · exact fun b hb => hs.holdsAll_iff.mp (h.held b hb)
  · intro h
    refine ⟨h.scope_ne, hcomplete.mpr h.complete, ?_, h.functionFree, ?_⟩
    · exact fun b hb => ParameterTable.argument?_isSome_iff.mpr (h.declared b hb)
    · exact fun b hb => hs.holdsAll_iff.mpr (h.contained b hb)

theorem admits_iff {p : Payload} : s.Admits p ↔ s.Allows p := by
  cases p with
  | startJob job => simp only [Admits, Allows, hs.holdsAll_iff]
  | stopJobs targets => simp only [Admits, Allows, hs.namesOwn_iff]
  | startScenario inner bindings => exact hs.binds_iff
  | stopScenario target => exact hs.namesOwn_iff

theorem coherent_iff : s.Coherent ↔ s.WellFormed := by
  have hranked : Acyclic (WaitsFor s.functions none) ↔ _ := acyclic_iff_exists_rank hs.ids_nodup
  constructor
  · intro h
    refine ⟨?_, h.ids, ?_, ?_, hranked.mpr h.ranked⟩
    · rw [← ParameterTable.uses_names]
      exact h.names
    · exact fun f hf r hr => hs.resolves_iff.mp (h.waits f hf r hr)
    · exact fun f hf => hs.admits_iff.mp (h.payloads f hf)
  · intro h
    refine ⟨?_, h.ids, ?_, ?_, hranked.mp h.acyclic⟩
    · rw [ParameterTable.uses_names]
      exact h.names
    · exact fun f hf r hr => hs.resolves_iff.mpr (h.waits f hf r hr)
    · exact fun f hf => hs.admits_iff.mpr (h.payloads f hf)

end Searchable

/-- Where the ids ascend at every level, what holds of searchable levels may be concluded level by
level. -/
theorem Everywhere.imp_of_searchable {P Q : Scenario → Prop} {s : Scenario} (h : s.Everywhere P)
    (hids : ∀ level, P level → (level.functions.map ScenarioFunction.id).Pairwise (· < ·))
    (himp : ∀ level, level.Searchable → P level → Q level) : s.Everywhere Q := by
  induction h with
  | @intro s here inside ih =>
      have hsearchable : s.Searchable :=
        ⟨hids s here, fun inner hstarts => hids inner (inside inner hstarts).here⟩
      exact .intro (himp s hsearchable here) ih

theorem everywhere_coherent_iff {s : Scenario} :
    s.Everywhere Coherent ↔ s.Everywhere WellFormed := by
  constructor
  · intro h
    exact h.imp_of_searchable (fun _ => Coherent.ids) fun _ hs => hs.coherent_iff.mp
  · intro h
    exact h.imp_of_searchable (fun _ => WellFormed.ids) fun _ hs => hs.coherent_iff.mpr

/-- A scenario passes the check exactly when it is well formed at every depth, and then, and only
then, it has a description. -/
theorem validate_decides (s : Scenario) :
    (s.validate = .ok () ↔ s.Everywhere WellFormed) ∧
      ((∃ d, s.describe = .ok d) ↔ s.validate = .ok ()) := by
  refine ⟨validate_eq_ok_iff.trans everywhere_coherent_iff, ?_⟩
  simp only [describe_eq_ok_iff, validate_eq_ok_iff]
  constructor
  · rintro ⟨d, hcoherent, -⟩
    exact hcoherent
  · intro hcoherent
    obtain ⟨d, hd⟩ := exists_outline hcoherent
    exact ⟨d, hcoherent, hd⟩

section Sample

/-- A scenario with functions out of order. -/
def shuffled : Scenario :=
  { create (.root 0) "shuffled" "" with
    functions := [⟨1, .stopJobs [], {}⟩, ⟨0, .stopJobs [], {}⟩] }

/-- A scenario that waits for a function of the shuffled one, which it starts. -/
def overseer : Scenario :=
  { create (.root 1) "overseer" "" with
    functions := [⟨0, .startScenario shuffled [], {}⟩,
      ⟨1, .stopJobs [], { finished := [.nested (.root 1) 0 0] }⟩] }

/-- The look-up happens to find the function. -/
example : overseer.resolve (.nested (.root 1) 0 0) = .ok ⟨0, .stopJobs [], {}⟩ := rfl

example : overseer.validate = .error (.duplicateId 0) := rfl

end Sample

end Scenario

end Orchestration
