import Orchestration.Proofs.Scenario.Coherence

namespace Orchestration

namespace ParameterTable

theorem argument?_isSome_iff {t : ParameterTable} {name : String} :
    (t.argument? name).isSome ↔ name ∈ t.arguments.map Argument.name := by
  simp [argument?, List.find?_isSome]

theorem constant?_isSome_iff {t : ParameterTable} {name : String} :
    (t.constant? name).isSome ↔ name ∈ t.constants.map Constant.name := by
  simp [constant?, List.find?_isSome]

theorem uses_names (t : ParameterTable) :
    t.uses.map Prod.fst = t.arguments.map Argument.name ++ t.constants.map Constant.name := by
  simp [uses, Function.comp_def]

theorem use?_eq_none_iff {t : ParameterTable} {name : String} :
    t.use? name = none ↔ name ∉ t.uses.map Prod.fst := by
  rw [uses_names, List.mem_append, ← argument?_isSome_iff, ← constant?_isSome_iff, use?]
  cases (t.argument? name).isSome <;> cases (t.constant? name).isSome <;> simp

theorem ensureUnused_eq_ok_iff {t : ParameterTable} {name : String} :
    t.ensureUnused name = .ok () ↔ name ∉ t.uses.map Prod.fst := by
  rw [ensureUnused, ← use?_eq_none_iff]
  cases t.use? name <;> simp

/-- Every argument that needs a value is among the names. -/
def Complete (t : ParameterTable) (names : List String) : Prop :=
  ∀ a ∈ t.arguments, a.default = none → a.name ∈ names

end ParameterTable

namespace Scenario

def withArgument (s : Scenario) (a : Argument) : Scenario :=
  { s with parameters := { s.parameters with arguments := s.parameters.arguments ++ [a] } }

def withConstant (s : Scenario) (c : Constant) : Scenario :=
  { s with parameters := { s.parameters with constants := s.parameters.constants ++ [c] } }

def withFunction (s : Scenario) (payload : Payload) (wait : WaitClause) : Scenario :=
  { s with functions := s.functions ++ [⟨s.ids.next, payload, wait⟩], ids := ⟨s.ids.next + 1⟩ }

/-- The scenario with the clause of one function replaced. -/
def rewired (s : Scenario) (id : FunctionId) (wait : WaitClause) : Scenario :=
  { s with functions := s.functions.map fun f => if f.id = id then { f with wait := wait } else f }

theorem addArgument_eq_ok_iff {s t : Scenario} {name description : String}
    {default : Option Json} {ref : ArgumentRef} :
    s.addArgument name description default = .ok (ref, t) ↔
      name ∉ s.parameters.uses.map Prod.fst ∧ ⟨s.parameters.scope, name⟩ = ref ∧
        s.withArgument ⟨name, description, default⟩ = t := by
  rw [addArgument, Outcome.bind_eq_ok_iff]
  simp only [ParameterTable.addArgument, Outcome.seq_eq_ok_iff,
    ParameterTable.ensureUnused_eq_ok_iff, Outcome.pure_eq_ok_iff, withArgument]
  constructor
  · rintro ⟨_, ⟨hname, rfl⟩, heq⟩
    cases heq
    exact ⟨hname, rfl, rfl⟩
  · rintro ⟨hname, rfl, rfl⟩
    exact ⟨_, ⟨hname, rfl⟩, rfl⟩

theorem addConstant_eq_ok_iff {s t : Scenario} {name : String} {value : Json}
    {ref : ConstantRef} :
    s.addConstant name value = .ok (ref, t) ↔
      name ∉ s.parameters.uses.map Prod.fst ∧ ⟨s.parameters.scope, name⟩ = ref ∧
        s.withConstant ⟨name, value⟩ = t := by
  rw [addConstant, Outcome.bind_eq_ok_iff]
  simp only [ParameterTable.addConstant, Outcome.seq_eq_ok_iff,
    ParameterTable.ensureUnused_eq_ok_iff, Outcome.pure_eq_ok_iff, withConstant]
  constructor
  · rintro ⟨_, ⟨hname, rfl⟩, heq⟩
    cases heq
    exact ⟨hname, rfl, rfl⟩
  · rintro ⟨hname, rfl, rfl⟩
    exact ⟨_, ⟨hname, rfl⟩, rfl⟩

theorem addFunction_eq_ok_iff {s t : Scenario} {payload : Payload} {wait : WaitClause}
    {h : Handle} :
    s.addFunction payload wait = .ok (h, t) ↔
      (∀ r ∈ wait.references, s.Resolves r) ∧ s.Admits payload ∧
        ⟨s.scope, s.ids.next, payload.kind⟩ = h ∧ s.withFunction payload wait = t := by
  rw [addFunction, Outcome.seq_eq_ok_iff, Outcome.seq_eq_ok_iff, checkWait_eq_ok_iff,
    checkPayload_eq_ok_iff]
  simp [IdSupply.issue, withFunction]

theorem setWait_eq_ok_iff {s t : Scenario} {h : Handle} {wait : WaitClause} :
    s.setWait h wait = .ok t ↔
      (h.scope = s.scope ∧ ∃ f, s.function? h.id = some f) ∧
        (∀ r ∈ wait.references, s.Resolves r ∧ r.outerId ≠ h.id) ∧
        findCycle s.functions (some (h.id, wait)) = none ∧ s.rewired h.id wait = t := by
  rw [setWait, Outcome.seq_eq_ok_iff, Outcome.seq_eq_ok_iff, checkHandle_eq_ok_iff,
    Outcome.forM_eq_ok_iff]
  simp only [checkRewired_eq_ok_iff]
  cases findCycle s.functions (some (h.id, wait)) <;> simp [rewired]

/-- The second scenario has everything that the first one has. Only wait clauses may differ. -/
structure Extends (s t : Scenario) : Prop where
  scope : t.scope = s.scope
  table : t.parameters.scope = s.parameters.scope
  registry : t.registry = s.registry
  arguments : s.parameters.arguments <+: t.parameters.arguments
  constants : s.parameters.constants <+: t.parameters.constants
  functions : ∀ id f, s.function? id = some f →
    ∃ g, t.function? id = some g ∧ g.payload = f.payload

theorem extends_withArgument (s : Scenario) (a : Argument) : s.Extends (s.withArgument a) where
  scope := rfl
  table := rfl
  registry := rfl
  arguments := List.prefix_append _ _
  constants := List.prefix_refl _
  functions := fun _ f hf => ⟨f, hf, rfl⟩

theorem extends_withConstant (s : Scenario) (c : Constant) : s.Extends (s.withConstant c) where
  scope := rfl
  table := rfl
  registry := rfl
  arguments := List.prefix_refl _
  constants := List.prefix_append _ _
  functions := fun _ f hf => ⟨f, hf, rfl⟩

/-- A new function takes the next id, so the ids stay 0, 1, 2 and so on. -/
theorem Intact.ids_withFunction {s : Scenario} (h : s.Intact) (payload : Payload)
    (wait : WaitClause) : (s.withFunction payload wait).functions.map ScenarioFunction.id =
      List.range (s.withFunction payload wait).functions.length := by
  simp [withFunction, h.dense, h.next, List.range_succ]

theorem Intact.extends_withFunction {s : Scenario} (h : s.Intact) (payload : Payload)
    (wait : WaitClause) : s.Extends (s.withFunction payload wait) where
  scope := rfl
  table := rfl
  registry := rfl
  arguments := List.prefix_refl _
  constants := List.prefix_refl _
  functions := by
    intro id f hf
    have hascends : ((s.withFunction payload wait).functions.map ScenarioFunction.id).Pairwise
        (· < ·) := by
      rw [h.ids_withFunction]
      exact List.pairwise_lt_range
    exact ⟨f, Bisection.find?_append hascends hf, rfl⟩

theorem rewired_function? (s : Scenario) (id other : FunctionId) (wait : WaitClause) :
    (s.rewired id wait).function? other =
      (s.function? other).map fun f => if f.id = id then { f with wait := wait } else f := by
  refine Bisection.find?_map (fun f => if f.id = id then { f with wait := wait } else f) ?_
    s.functions
  intro f
  split <;> rfl

theorem extends_rewired (s : Scenario) (id : FunctionId) (wait : WaitClause) :
    s.Extends (s.rewired id wait) where
  scope := rfl
  table := rfl
  registry := rfl
  arguments := List.prefix_refl _
  constants := List.prefix_refl _
  functions := by
    intro other f hf
    rw [rewired_function?, hf]
    refine ⟨_, rfl, ?_⟩
    by_cases hid : f.id = id <;> simp [hid]

namespace Extends

variable {s t : Scenario}

theorem refl (s : Scenario) : s.Extends s :=
  ⟨rfl, rfl, rfl, List.prefix_refl _, List.prefix_refl _, fun _ f hf => ⟨f, hf, rfl⟩⟩

theorem trans {u : Scenario} (h : s.Extends t) (k : t.Extends u) : s.Extends u where
  scope := k.scope.trans h.scope
  table := k.table.trans h.table
  registry := k.registry.trans h.registry
  arguments := h.arguments.trans k.arguments
  constants := h.constants.trans k.constants
  functions := by
    intro id f hf
    obtain ⟨g, hg, hpayload⟩ := h.functions id f hf
    obtain ⟨g', hg', hpayload'⟩ := k.functions id g hg
    exact ⟨g', hg', hpayload'.trans hpayload⟩

/-- A look-up that found an argument finds the same one, for what was added stands behind it. -/
theorem argument? (h : s.Extends t) {name : String} {a : Argument}
    (ha : s.parameters.argument? name = some a) : t.parameters.argument? name = some a :=
  h.arguments.find?_eq_some ha

theorem constantValue? (h : s.Extends t) {ref : ConstantRef} {value : Json}
    (hvalue : s.parameters.constantValue? ref = some value) :
    t.parameters.constantValue? ref = some value := by
  unfold ParameterTable.constantValue? at hvalue ⊢
  rw [h.table]
  split at hvalue
  next hscope =>
    obtain ⟨c, hc, rfl⟩ := Option.map_eq_some_iff.mp hvalue
    have hfound : t.parameters.constant? ref.name = some c := h.constants.find?_eq_some hc
    rw [if_pos hscope, hfound, Option.map_some]
  next => cases hvalue

theorem names (h : s.Extends t) {r : Reference} {f : ScenarioFunction} (hf : s.Names r f) :
    ∃ g, t.Names r g ∧ g.payload = f.payload := by
  obtain ⟨scope, host, id⟩ := r
  obtain ⟨hscope, hf⟩ := hf
  cases host with
  | none =>
      obtain ⟨g, hg, hpayload⟩ := h.functions id f hf
      exact ⟨g, ⟨hscope.trans h.scope.symm, hg⟩, hpayload⟩
  | some host =>
      obtain ⟨hostFunction, inner, bindings, hhost, hstarts, hinner⟩ := hf
      obtain ⟨g, hg, hpayload⟩ := h.functions host hostFunction hhost
      refine ⟨f, ⟨hscope.trans h.scope.symm, ?_⟩, rfl⟩
      exact ⟨g, inner, bindings, hg, hpayload.trans hstarts, hinner⟩

theorem resolves (h : s.Extends t) {r : Reference} (hr : s.Resolves r) : t.Resolves r := by
  obtain ⟨f, hf⟩ := hr
  obtain ⟨g, hg, -⟩ := h.names hf
  exact ⟨g, hg⟩

theorem holds (h : s.Extends t) {r : ValueReference} (hr : s.Holds r) : t.Holds r := by
  cases r with
  | argument a =>
      refine ⟨hr.1.trans h.table.symm, ?_⟩
      rw [ParameterTable.argument?_isSome_iff]
      exact (h.arguments.map _).subset (ParameterTable.argument?_isSome_iff.mp hr.2)
  | constant c =>
      refine ⟨hr.1.trans h.table.symm, ?_⟩
      rw [ParameterTable.constant?_isSome_iff]
      exact (h.constants.map _).subset (ParameterTable.constant?_isSome_iff.mp hr.2)
  | function r => exact h.resolves hr

theorem holdsAll (h : s.Extends t) {value : ParameterValue} (hv : s.HoldsAll value) :
    t.HoldsAll value :=
  fun r hr => h.holds (hv r hr)

theorem namesOwn (h : s.Extends t) {kind : FunctionKind} {r : Reference}
    (hr : s.NamesOwn kind r) : t.NamesOwn kind r := by
  obtain ⟨hhost, f, hf, hkind⟩ := hr
  obtain ⟨g, hg, hpayload⟩ := h.names hf
  refine ⟨hhost, g, hg, ?_⟩
  rw [ScenarioFunction.kind, hpayload]
  exact hkind

theorem admits (h : s.Extends t) {p : Payload} (hp : s.Admits p) : t.Admits p := by
  cases p with
  | startJob job =>
      refine ⟨?_, fun v hv => h.holdsAll (hp.2 v hv)⟩
      rw [h.registry]
      exact hp.1
  | stopJobs targets => exact fun r hr => h.namesOwn (hp r hr)
  | startScenario inner bindings =>
      refine ⟨?_, hp.complete, hp.declared, hp.functionFree, fun b hb => h.holdsAll (hp.held b hb)⟩
      rw [h.scope]
      exact hp.scope_ne
  | stopScenario target => exact h.namesOwn hp

end Extends

end Scenario

end Orchestration
