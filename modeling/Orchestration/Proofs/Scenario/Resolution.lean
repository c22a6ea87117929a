import Orchestration.Proofs.Bisection
import Orchestration.Proofs.Outcome
import Orchestration.Proofs.Entries
import Orchestration.Scenario.Build

namespace Orchestration

theorem Payload.started?_eq_some_iff {p : Payload} {inner : Scenario}
    {bindings : Entries String ParameterValue} :
    p.started? = some (inner, bindings) ↔ p = .startScenario inner bindings := by
  cases p <;> simp [Payload.started?]

theorem ScenarioFunction.started?_eq_some_iff {f : ScenarioFunction} {inner : Scenario}
    {bindings : Entries String ParameterValue} :
    f.started? = some (inner, bindings) ↔ f.payload = .startScenario inner bindings :=
  Payload.started?_eq_some_iff

namespace Scenario

theorem mem_of_function? {s : Scenario} {id : FunctionId} {f : ScenarioFunction}
    (h : s.function? id = some f) : f ∈ s.functions ∧ f.id = id :=
  Bisection.mem_of_find? h

theorem function?_of_mem {s : Scenario}
    (hids : (s.functions.map ScenarioFunction.id).Pairwise (· < ·)) {f : ScenarioFunction}
    (hf : f ∈ s.functions) : s.function? f.id = some f :=
  Bisection.find?_of_mem hf hids

/-- The reference names the function `f`, one of the scenario itself or, under a host, one of the
scenario that the host starts. -/
def Names (s : Scenario) (r : Reference) (f : ScenarioFunction) : Prop :=
  r.scope = s.scope ∧
    match r.host with
    | none => s.function? r.id = some f
    | some host => ∃ h inner bindings, s.function? host = some h ∧
        h.payload = .startScenario inner bindings ∧ inner.function? r.id = some f

theorem resolve_eq_ok_iff {s : Scenario} {r : Reference} {f : ScenarioFunction} :
    s.resolve r = .ok f ↔ s.Names r f := by
  obtain ⟨scope, host, id⟩ := r
  by_cases hscope : scope = s.scope
  · cases host with
    | none =>
        cases hfind : s.function? id <;> simp [resolve, Names, hscope, hfind]
    | some host =>
        simp only [resolve, Names, hscope, ne_eq, not_true_eq_false, ↓reduceIte, true_and]
        cases hhost : s.function? host with
        | none => simp
        | some h =>
            cases hstarted : h.started? with
            | none =>
                simp only [hstarted, Outcome.throw_ne_ok, Option.some.injEq, false_iff]
                rintro ⟨_, inner, bindings, rfl, hpayload, -⟩
                rw [ScenarioFunction.started?_eq_some_iff.mpr hpayload] at hstarted
                cases hstarted
            | some started =>
                obtain ⟨inner, bindings⟩ := started
                have hpayload := ScenarioFunction.started?_eq_some_iff.mp hstarted
                cases hinner : inner.function? id <;> simp [hstarted, hpayload, hinner]
  · simp [resolve, Names, hscope]

def Resolves (s : Scenario) (r : Reference) : Prop := ∃ f, s.Names r f

theorem resolve_seq_eq_ok_iff {β : Type} {s : Scenario} {r : Reference} {y : Except Failure β}
    {b : β} : (do let _ ← s.resolve r; y) = .ok b ↔ s.Resolves r ∧ y = .ok b := by
  rw [Outcome.bind_eq_ok_iff]
  simp only [resolve_eq_ok_iff, Resolves, exists_and_right]

/-- The function of the scenario itself that a resolving reference depends on. -/
theorem Resolves.outer {s : Scenario} {r : Reference} (h : s.Resolves r) :
    ∃ f, s.function? r.outerId = some f := by
  obtain ⟨f, -, hnames⟩ := h
  obtain ⟨scope, host, id⟩ := r
  cases host with
  | none => exact ⟨f, hnames⟩
  | some host =>
      obtain ⟨h, -, -, hhost, -⟩ := hnames
      exact ⟨h, hhost⟩

theorem checkHandle_eq_ok_iff {s : Scenario} {h : Handle} :
    s.checkHandle h = .ok () ↔ h.scope = s.scope ∧ ∃ f, s.function? h.id = some f := by
  by_cases hscope : h.scope = s.scope
  · cases hfind : s.function? h.id <;> simp [checkHandle, hscope, hfind]
  · simp [checkHandle, hscope]

theorem checkWait_eq_ok_iff {s : Scenario} {wait : WaitClause} :
    s.checkWait wait = .ok () ↔ ∀ r ∈ wait.references, s.Resolves r := by
  rw [checkWait, Outcome.forM_eq_ok_iff]
  simp only [resolve_seq_eq_ok_iff, Outcome.pure_eq_ok_iff, and_true]

theorem checkRewired_eq_ok_iff {s : Scenario} {id : FunctionId} {r : Reference} :
    s.checkRewired id r = .ok () ↔ s.Resolves r ∧ r.outerId ≠ id := by
  rw [checkRewired, resolve_seq_eq_ok_iff, Outcome.unless_throw_eq_ok_iff]

/-- What a reference inside a value names is there, in this scenario. -/
def Holds (s : Scenario) : ValueReference → Prop
  | .argument a => a.scope = s.parameters.scope ∧ (s.parameters.argument? a.name).isSome
  | .constant c => c.scope = s.parameters.scope ∧ (s.parameters.constant? c.name).isSome
  | .function r => s.Resolves r

theorem checkReference_eq_ok_iff {s : Scenario} {r : ValueReference} :
    s.checkReference r = .ok () ↔ s.Holds r := by
  cases r with
  | argument a =>
      rw [checkReference, Outcome.guard_eq_ok_iff]
      simp [Holds, ParameterTable.resolvesArgument]
  | constant c =>
      rw [checkReference, Outcome.guard_eq_ok_iff]
      by_cases hscope : c.scope = s.parameters.scope <;>
        simp [Holds, ParameterTable.constantValue?, hscope]
  | function r =>
      simp only [checkReference, Holds, resolve_seq_eq_ok_iff, Outcome.pure_eq_ok_iff, and_true]

/-- Everything that a value refers to is there. -/
def HoldsAll (s : Scenario) (value : ParameterValue) : Prop :=
  ∀ r ∈ value.references, s.Holds r

theorem checkValue_eq_ok_iff {s : Scenario} {value : ParameterValue} :
    s.checkValue value = .ok () ↔ s.HoldsAll value := by
  rw [checkValue, Outcome.forM_eq_ok_iff]
  simp only [checkReference_eq_ok_iff, HoldsAll]

/-- The reference names a function of a kind, of the scenario itself. -/
def NamesOwn (s : Scenario) (kind : FunctionKind) (r : Reference) : Prop :=
  r.host = none ∧ ∃ f, s.Names r f ∧ f.kind = kind

theorem checkStopTarget_eq_ok_iff {s : Scenario} {kind : FunctionKind} {r : Reference} :
    s.checkStopTarget kind r = .ok () ↔ s.NamesOwn kind r := by
  rw [checkStopTarget, Outcome.bind_eq_ok_iff]
  simp only [resolve_eq_ok_iff, Outcome.unless_throw_eq_ok_iff]
  simp only [NamesOwn, Reference.isNested, not_or, ne_eq, not_not]
  cases r.host <;> simp

/-- The values bound to the arguments of an embedded scenario are complete, they are declared, they
hold no functions, and they are in the terms of the embedding scenario. -/
structure Binds (s inner : Scenario) (bindings : Entries String ParameterValue) : Prop where
  scope_ne : inner.scope ≠ s.scope
  complete : ∀ a ∈ inner.parameters.required, a.name ∈ Entries.keys bindings
  declared : ∀ b ∈ bindings, (inner.parameters.argument? b.1).isSome
  functionFree : ∀ b ∈ bindings, ∀ r ∈ b.2.references, r.isFunction = false
  held : ∀ b ∈ bindings, s.HoldsAll b.2

theorem checkBinding_eq_ok_iff {s inner : Scenario} {b : String × ParameterValue} :
    s.checkBinding inner b = .ok () ↔ (inner.parameters.argument? b.1).isSome ∧
      (∀ r ∈ b.2.references, r.isFunction = false) ∧ s.HoldsAll b.2 := by
  rw [checkBinding, Outcome.guard_seq_eq_ok_iff, Outcome.guard_seq_eq_ok_iff, checkValue_eq_ok_iff]
  cases inner.parameters.argument? b.1 <;> simp

theorem checkBindings_eq_ok_iff {s inner : Scenario} {bindings : Entries String ParameterValue} :
    s.checkBindings inner bindings = .ok () ↔ s.Binds inner bindings := by
  rw [checkBindings, Outcome.guard_seq_eq_ok_iff]
  cases hfind : inner.parameters.required.find? fun a => !Entries.has a.name bindings with
  | some a =>
      simp only [Outcome.throw_ne_ok, and_false, false_iff]
      intro hbinds
      have hhas := Entries.has_iff.mpr (hbinds.complete a (List.mem_of_find?_eq_some hfind))
      have hmissing := List.find?_some hfind
      simp [hhas] at hmissing
  | none =>
      simp only [Outcome.forM_eq_ok_iff, checkBinding_eq_ok_iff]
      constructor
      · rintro ⟨hscope, hall⟩
        refine ⟨hscope, ?_, fun b hb => (hall b hb).1, fun b hb => (hall b hb).2.1,
          fun b hb => (hall b hb).2.2⟩
        intro a ha
        have hhas := List.find?_eq_none.mp hfind a ha
        exact Entries.has_iff.mp (by simpa using hhas)
      · rintro ⟨hscope, -, hdeclared, hfree, hheld⟩
        exact ⟨hscope, fun b hb => ⟨hdeclared b hb, hfree b hb, hheld b hb⟩⟩

/-- What a function may do in a scenario. -/
def Admits (s : Scenario) : Payload → Prop
  | .startJob job => s.registry.check job = .ok () ∧ ∀ v ∈ job.values, s.HoldsAll v
  | .stopJobs targets => ∀ r ∈ targets, s.NamesOwn .startJob r
  | .startScenario inner bindings => s.Binds inner bindings
  | .stopScenario target => s.NamesOwn .startScenario target

theorem checkPayload_eq_ok_iff {s : Scenario} {p : Payload} :
    s.checkPayload p = .ok () ↔ s.Admits p := by
  cases p with
  | startJob job =>
      rw [checkPayload, Outcome.seq_eq_ok_iff, Outcome.forM_eq_ok_iff]
      simp only [checkValue_eq_ok_iff, Admits]
  | stopJobs targets =>
      rw [checkPayload, Outcome.forM_eq_ok_iff]
      simp only [checkStopTarget_eq_ok_iff, Admits]
  | startScenario inner bindings => exact checkBindings_eq_ok_iff
  | stopScenario target => exact checkStopTarget_eq_ok_iff

end Scenario

end Orchestration
