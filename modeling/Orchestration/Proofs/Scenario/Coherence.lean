import Orchestration.Proofs.Scenario.Resolution
import Orchestration.Proofs.WaitGraph
import Orchestration.Scenario.Validate

namespace Orchestration

namespace Scenario

/-- A function of the scenario starts the other one. -/
def Starts (s inner : Scenario) : Prop :=
  ∃ f ∈ s.functions, ∃ bindings, f.payload = .startScenario inner bindings

theorem Starts.sizeOf_lt {s inner : Scenario} (h : s.Starts inner) : sizeOf inner < sizeOf s := by
  obtain ⟨f, hf, bindings, hpayload⟩ := h
  have hfunction := List.sizeOf_lt_of_mem hf
  have hscenario : sizeOf s.functions < sizeOf s := by
    cases s
    simp only [Scenario.mk.sizeOf_spec]
    omega
  have hinner : sizeOf inner < sizeOf f := by
    cases f
    subst hpayload
    simp only [ScenarioFunction.mk.sizeOf_spec, Payload.startScenario.sizeOf_spec]
    omega
  omega

@[elab_as_elim]
theorem induction_on {motive : Scenario → Prop} (s : Scenario)
    (step : ∀ s, (∀ inner, s.Starts inner → motive inner) → motive s) : motive s :=
  step s fun inner _ => induction_on inner step
termination_by s
decreasing_by exact Starts.sizeOf_lt ‹_›

/-- A property of the scenario and of every scenario embedded in it, at any depth. -/
inductive Everywhere (P : Scenario → Prop) : Scenario → Prop
  | intro {s : Scenario} (here : P s) (inside : ∀ inner, s.Starts inner → Everywhere P inner) :
      Everywhere P s

namespace Everywhere

variable {P Q : Scenario → Prop} {s : Scenario}

theorem here (h : s.Everywhere P) : P s := by
  cases h with
  | intro here _ => exact here

theorem inside (h : s.Everywhere P) {inner : Scenario} (hstarts : s.Starts inner) :
    inner.Everywhere P := by
  cases h with
  | intro _ inside => exact inside inner hstarts

theorem imp (h : s.Everywhere P) (himp : ∀ level, P level → Q level) : s.Everywhere Q := by
  induction h with
  | intro here _ ih => exact .intro (himp _ here) ih

end Everywhere

/-- One level of a scenario is in order: names are used once, ids ascend, every clause and payload
is in the terms of the level, and the functions can be ranked by what they wait for. -/
structure Coherent (s : Scenario) : Prop where
  names : (s.parameters.uses.map Prod.fst).Nodup
  ids : (s.functions.map ScenarioFunction.id).Pairwise (· < ·)
  waits : ∀ f ∈ s.functions, ∀ r ∈ f.wait.references, s.Resolves r
  payloads : ∀ f ∈ s.functions, s.Admits f.payload
  ranked : ∃ rank : FunctionId → Nat, ∀ f ∈ s.functions, ∀ r ∈ f.wait.references,
    rank r.outerId < rank f.id

/-- What every building call keeps besides: the table has the scope of the scenario, and the ids
that were given out are 0, 1, 2 and so on, the next one being the number of functions. -/
structure Intact (s : Scenario) : Prop extends Coherent s where
  table : s.parameters.scope = s.scope
  dense : s.functions.map ScenarioFunction.id = List.range s.functions.length
  next : s.ids.next = s.functions.length

/-- The ids ascend here and one level down, so that a look-up finds whatever is there. -/
structure Searchable (s : Scenario) : Prop where
  here : (s.functions.map ScenarioFunction.id).Pairwise (· < ·)
  inside : ∀ inner, s.Starts inner → (inner.functions.map ScenarioFunction.id).Pairwise (· < ·)

theorem Coherent.ids_nodup {s : Scenario} (h : s.Coherent) :
    (s.functions.map ScenarioFunction.id).Nodup :=
  h.ids.imp Nat.ne_of_lt

/-- A function is named by the reference of its id. -/
theorem Coherent.namesOwn {s : Scenario} (h : s.Coherent) {f : ScenarioFunction}
    (hf : f ∈ s.functions) : s.NamesOwn f.kind (.own s.scope f.id) :=
  ⟨rfl, f, ⟨rfl, function?_of_mem h.ids hf⟩, rfl⟩

theorem Everywhere.coherent {s : Scenario} (h : s.Everywhere Intact) : s.Everywhere Coherent :=
  h.imp fun _ => Intact.toCoherent

theorem Everywhere.searchable {s : Scenario} (h : s.Everywhere Coherent) : s.Searchable where
  here := h.here.ids
  inside := fun _ hstarts => (h.inside hstarts).here.ids

end Scenario

namespace ParameterTable

theorem firstRepeated_eq_none_iff {seen uses : List (String × ParameterKind)} :
    firstRepeated seen uses = none ↔
      (uses.map Prod.fst).Nodup ∧ ∀ name ∈ uses.map Prod.fst, name ∉ Entries.keys seen := by
  induction uses generalizing seen with
  | nil => simp [firstRepeated]
  | cons use rest ih =>
      obtain ⟨name, kind⟩ := use
      rw [firstRepeated]
      cases hfind : Entries.find? name seen with
      | some existing =>
          have hmem : name ∈ Entries.keys seen :=
            Entries.find?_isSome_iff.mp (by simp [hfind])
          simp [hmem]
      | none =>
          have hnot : name ∉ Entries.keys seen := by
            intro hmem
            have := Entries.find?_isSome_iff.mpr hmem
            simp [hfind] at this
          simp only [ih, List.map_cons, List.nodup_cons, List.mem_cons, forall_eq_or_imp]
          constructor
          · rintro ⟨hnodup, hfresh⟩
            refine ⟨⟨fun hmem => hfresh name hmem (by simp [Entries.keys]), hnodup⟩, hnot, ?_⟩
            exact fun other hother hseen => hfresh other hother (List.mem_cons_of_mem _ hseen)
          · rintro ⟨⟨hname, hnodup⟩, -, hfresh⟩
            refine ⟨hnodup, ?_⟩
            intro other hother hseen
            rcases List.mem_cons.mp hseen with rfl | hseen
            · exact hname hother
            · exact hfresh other hother hseen

theorem checkUniqueNames_eq_ok_iff {t : ParameterTable} :
    t.checkUniqueNames = .ok () ↔ (t.uses.map Prod.fst).Nodup := by
  have hiff : firstRepeated [] t.uses = none ↔ (t.uses.map Prod.fst).Nodup ∧
      ∀ name ∈ t.uses.map Prod.fst, name ∉ Entries.keys [] := firstRepeated_eq_none_iff
  rw [checkUniqueNames]
  cases hfirst : firstRepeated [] t.uses <;> simp_all [Entries.keys]

end ParameterTable

open Scenario

theorem validateFunctions_cons_eq_ok_iff {owner : Scenario} {previous : Option FunctionId}
    {f : ScenarioFunction} {rest : List ScenarioFunction} :
    validateFunctions owner previous (f :: rest) = .ok () ↔
      ¬ previous.any (f.id ≤ ·) = true ∧
        (∀ r ∈ f.wait.references, owner.Resolves r ∧ r.outerId ≠ f.id) ∧
        owner.Admits f.payload ∧
        (∀ inner bindings, f.payload = .startScenario inner bindings → inner.validate = .ok ()) ∧
        validateFunctions owner (some f.id) rest = .ok () := by
  obtain ⟨id, payload, wait⟩ := f
  rw [validateFunctions, Outcome.guard_seq_eq_ok_iff, Outcome.seq_eq_ok_iff,
    Outcome.seq_eq_ok_iff, Outcome.forM_eq_ok_iff, checkPayload_eq_ok_iff]
  simp only [checkRewired_eq_ok_iff]
  cases payload with
  | startScenario inner bindings => simp [Outcome.seq_eq_ok_iff]
  | startJob _ | stopJobs _ | stopScenario _ => simp

theorem validateFunctions_eq_ok_iff {owner : Scenario} {previous : Option FunctionId}
    {functions : List ScenarioFunction} :
    validateFunctions owner previous functions = .ok () ↔
      (previous.toList ++ functions.map ScenarioFunction.id).IsChain (· < ·) ∧
        ∀ f ∈ functions,
          (∀ r ∈ f.wait.references, owner.Resolves r ∧ r.outerId ≠ f.id) ∧
          owner.Admits f.payload ∧
          ∀ inner bindings, f.payload = .startScenario inner bindings →
            inner.validate = .ok () := by
  induction functions generalizing previous with
  | nil => cases previous <;> simp [validateFunctions]
  | cons f rest ih =>
      have hchain : (previous.toList ++ (f :: rest).map ScenarioFunction.id).IsChain (· < ·) ↔
          ¬ previous.any (f.id ≤ ·) = true ∧
            ((some f.id).toList ++ rest.map ScenarioFunction.id).IsChain (· < ·) := by
        cases previous <;> simp
      rw [validateFunctions_cons_eq_ok_iff, ih, hchain]
      simp only [List.mem_cons, forall_eq_or_imp]
      tauto

theorem Scenario.validate_eq_ok_iff_level {s : Scenario} :
    s.validate = .ok () ↔
      s.Coherent ∧ ∀ inner, s.Starts inner → inner.validate = .ok () := by
  have hunfold : s.validate = .ok () ↔ s.parameters.checkUniqueNames = .ok () ∧
      validateFunctions s none s.functions = .ok () ∧ findCycle s.functions none = none := by
    obtain ⟨name, description, scope, parameters, functions, ids, registry⟩ := s
    rw [validate, Outcome.seq_eq_ok_iff, Outcome.seq_eq_ok_iff]
    cases findCycle functions none <;> simp
  rw [hunfold, ParameterTable.checkUniqueNames_eq_ok_iff, validateFunctions_eq_ok_iff]
  simp only [Option.toList_none, List.nil_append, List.isChain_iff_pairwise]
  constructor
  · rintro ⟨hnames, ⟨hids, hfunctions⟩, hcycle⟩
    refine ⟨⟨hnames, hids, ?_, ?_, ?_⟩, ?_⟩
    · exact fun f hf r hr => ((hfunctions f hf).1 r hr).1
    · exact fun f hf => (hfunctions f hf).2.1
    · exact (findCycle_eq_none_iff (hids.imp Nat.ne_of_lt)).mp hcycle
    · rintro inner ⟨f, hf, bindings, hpayload⟩
      exact (hfunctions f hf).2.2 inner bindings hpayload
  · rintro ⟨hcoherent, hinside⟩
    obtain ⟨rank, hrank⟩ := hcoherent.ranked
    refine ⟨hcoherent.names, ⟨hcoherent.ids, ?_⟩, ?_⟩
    · intro f hf
      refine ⟨?_, hcoherent.payloads f hf, ?_⟩
      · intro r hr
        refine ⟨hcoherent.waits f hf r hr, ?_⟩
        intro heq
        exact Nat.lt_irrefl _ (heq ▸ hrank f hf r hr)
      · intro inner bindings hpayload
        exact hinside inner ⟨f, hf, bindings, hpayload⟩
    · exact (findCycle_eq_none_iff hcoherent.ids_nodup).mpr ⟨rank, hrank⟩

/-- The check passes exactly when every level is coherent. -/
theorem Scenario.validate_eq_ok_iff {s : Scenario} :
    s.validate = .ok () ↔ s.Everywhere Coherent := by
  constructor
  · intro h
    induction s using induction_on with
    | step s ih =>
        obtain ⟨hcoherent, hinside⟩ := validate_eq_ok_iff_level.mp h
        exact .intro hcoherent fun inner hstarts => ih inner hstarts (hinside inner hstarts)
  · intro h
    induction h with
    | intro here _ ih => exact validate_eq_ok_iff_level.mpr ⟨here, ih⟩

end Orchestration
