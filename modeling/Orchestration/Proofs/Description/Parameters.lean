import Orchestration.Proofs.Scenario.Outline

namespace Orchestration

/-- What the value mentions of parameters is declared by this level, by name and by scope. -/
structure InTermsOf (s : Scenario) (d : Description) (value : ParameterValue) : Prop where
  arguments : ∀ ref, value.Mentions (.argument ref) →
    ref.scope = s.scope ∧ ref.name ∈ d.arguments.map Argument.name
  constants : ∀ ref, value.Mentions (.constant ref) →
    ref.scope = s.scope ∧ ref.name ∈ d.constants.map Constant.name

/-- The values bound to the arguments of an embedded scenario are all that it needs and nothing
else; they are in the terms of the level that binds them, which is not the embedded scenario, and
mention no functions. -/
structure BindingsClosed (s : Scenario) (d : Description) (inner : Scenario)
    (scenario : Description) (bindings : Entries String ParameterValue)
    (arguments : Entries String Json) : Prop where
  complete : ∀ a ∈ scenario.arguments, a.default = none → a.name ∈ Entries.keys arguments
  declared : ∀ key ∈ Entries.keys arguments, key ∈ scenario.arguments.map Argument.name
  scope_ne : inner.scope ≠ s.scope
  values : ∀ binding ∈ bindings, InTermsOf s d binding.2
  functionFree : ∀ binding ∈ bindings, ∀ ref, ¬ binding.2.Mentions (.function ref)
  written : EntriesWritten d.constants bindings arguments

/-- A payload of one level and the record of it: the parameters are those of the level, and the
record has them written out. -/
inductive PayloadClosed (s : Scenario) (d : Description) : Payload → PayloadRecord → Prop
  | startJob {job : JobLaunch} {offset : Double} {arguments : Entries String Json}
      (values : ∀ argument ∈ job.arguments, InTermsOf s d argument.2)
      (address : ∀ endpoint, job.endpoint = some endpoint → InTermsOf s d endpoint.address)
      (port : ∀ endpoint, job.endpoint = some endpoint →
        ∀ value, endpoint.port = some value → InTermsOf s d value)
      (written : EntriesWritten d.constants job.arguments arguments) :
      PayloadClosed s d (.startJob job) (.startJob job.entity job.job offset arguments)
  | stopJobs (references : List Reference) (targets : List Target) :
      PayloadClosed s d (.stopJobs references) (.stopJobs targets)
  | startScenario {inner : Scenario} {bindings : Entries String ParameterValue} {name : String}
      {scenario : Description} {arguments : Entries String Json}
      (closed : BindingsClosed s d inner scenario bindings arguments) :
      PayloadClosed s d (.startScenario inner bindings) (.startScenario name scenario arguments)
  | stopScenario (reference : Reference) (target : Target) :
      PayloadClosed s d (.stopScenario reference) (.stopScenario target)

/-- The parameters of one level and of its description are closed: names are distinct over both
kinds, and so are the payloads, each beside its record. -/
structure ParametersClosed (s : Scenario) (d : Description) : Prop where
  names : (d.arguments.map Argument.name ++ d.constants.map Constant.name).Nodup
  payloads : List.Forall₂ (fun f r => PayloadClosed s d f.payload r.payload)
    s.functions d.functions

/-- A relation between a scenario and its description, and between what a function of the one and
its record in the other embed, at any depth. -/
inductive Alongside (R : Scenario → Description → Prop) : Scenario → Description → Prop
  | intro {s : Scenario} {d : Description} (here : R s d)
      (inside : ∀ f r, (f, r) ∈ s.functions.zip d.functions →
        ∀ inner bindings name scenario arguments, f.payload = .startScenario inner bindings →
          r.payload = .startScenario name scenario arguments → Alongside R inner scenario) :
      Alongside R s d

namespace Scenario

variable {s : Scenario} {d : Description}

theorem HoldsAll.inTermsOf (houtlined : Outlined s d) (hintact : s.Intact)
    {value : ParameterValue} (h : s.HoldsAll value) : InTermsOf s d value := by
  constructor
  · intro ref hmentions
    obtain ⟨hscope, hname⟩ := h _ hmentions.mem_references
    rw [houtlined.arguments]
    exact ⟨hscope.trans hintact.table, ParameterTable.argument?_isSome_iff.mp hname⟩
  · intro ref hmentions
    obtain ⟨hscope, hname⟩ := h _ hmentions.mem_references
    rw [houtlined.constants]
    exact ⟨hscope.trans hintact.table, ParameterTable.constant?_isSome_iff.mp hname⟩

theorem Binds.closed (houtlined : Outlined s d) (hintact : s.Intact) {inner : Scenario}
    {scenario : Description} {bindings : Entries String ParameterValue}
    {arguments : Entries String Json} (h : s.Binds inner bindings)
    (hscenario : Outlined inner scenario)
    (hwritten : EntriesWritten d.constants bindings arguments) :
    BindingsClosed s d inner scenario bindings arguments := by
  refine ⟨?_, ?_, h.scope_ne, ?_, ?_, hwritten⟩
  · intro a ha hdefault
    rw [hscenario.arguments] at ha
    rw [hwritten.keys]
    apply h.complete
    exact List.mem_filter.mpr ⟨ha, by simp [Argument.isRequired, hdefault]⟩
  · intro key hkey
    rw [hwritten.keys] at hkey
    obtain ⟨binding, hbinding, rfl⟩ := List.mem_map.mp hkey
    rw [hscenario.arguments]
    exact ParameterTable.argument?_isSome_iff.mp (h.declared binding hbinding)
  · exact fun binding hbinding => (h.held binding hbinding).inTermsOf houtlined hintact
  · intro binding hbinding ref hmentions
    have hfree := h.functionFree binding hbinding _ hmentions.mem_references
    simp [ValueReference.isFunction] at hfree

/-- Entries that a scenario holds are written out with the constants of its description. -/
theorem entriesWritten_of_resolveValues (houtlined : Outlined s d)
    {entries : Entries String ParameterValue} {members : Entries String Json}
    (hheld : ∀ entry ∈ entries, s.HoldsAll entry.2)
    (h : s.resolveValues entries = .ok members) :
    EntriesWritten d.constants entries members := by
  obtain ⟨_, hresolved, hwritten⟩ := exists_resolveValues hheld
  rw [h] at hresolved
  cases hresolved
  exact houtlined.constants ▸ hwritten

theorem Admits.closed (houtlined : Outlined s d) (hintact : s.Intact) {payload : Payload}
    {record : PayloadRecord} (hadmits : s.Admits payload)
    (hpayload : PayloadOutlined s payload record) : PayloadClosed s d payload record := by
  cases hpayload with
  | @startJob job arguments harguments =>
      have hvalues : ∀ v ∈ job.values, InTermsOf s d v :=
        fun v hv => (hadmits.2 v hv).inTermsOf houtlined hintact
      have harguments_mem : ∀ argument ∈ job.arguments, argument.2 ∈ job.values :=
        fun argument hmem => List.mem_append_left _ (List.mem_map_of_mem hmem)
      refine .startJob ?_ ?_ ?_ ?_
      · exact fun argument hmem => hvalues _ (harguments_mem argument hmem)
      · intro endpoint hendpoint
        exact hvalues _ (by simp [JobLaunch.values, hendpoint, Endpoint.values])
      · intro endpoint hendpoint value hport
        exact hvalues _ (by simp [JobLaunch.values, hendpoint, Endpoint.values, hport])
      · exact entriesWritten_of_resolveValues houtlined
          (fun argument hmem => hadmits.2 _ (harguments_mem argument hmem)) harguments
  | stopJobs targets => exact .stopJobs _ _
  | startScenario hscenario harguments =>
      have hbinds : s.Binds _ _ := hadmits
      exact .startScenario (hbinds.closed houtlined hintact (outline_eq_ok_iff.mp hscenario)
        (entriesWritten_of_resolveValues houtlined hbinds.held harguments))
  | stopScenario target => exact .stopScenario _ _

theorem Intact.parametersClosed (hintact : s.Intact) (houtlined : Outlined s d) :
    ParametersClosed s d := by
  constructor
  · rw [houtlined.arguments, houtlined.constants, ← ParameterTable.uses_names]
    exact hintact.names
  · rw [List.forall₂_iff_zip]
    refine ⟨houtlined.functions.length_eq, ?_⟩
    intro f r hmem
    have hadmits := hintact.payloads f (List.of_mem_zip hmem).1
    exact hadmits.closed houtlined hintact (List.forall₂_zip houtlined.functions hmem).payload

/-- What holds of every level of a scenario and the description of that level holds of the scenario
alongside its description. -/
theorem Everywhere.alongside {P : Scenario → Prop} {R : Scenario → Description → Prop}
    (h : s.Everywhere P) (hd : s.outline = .ok d)
    (hlevel : ∀ level description, P level → Outlined level description → R level description) :
    Alongside R s d := by
  induction h generalizing d with
  | intro here _ ih =>
      have houtlined := outline_eq_ok_iff.mp hd
      refine .intro (hlevel _ _ here houtlined) ?_
      intro f r hmem inner bindings name scenario arguments hf hr
      have hpayload := (List.forall₂_zip houtlined.functions hmem).payload
      rw [hf, hr] at hpayload
      cases hpayload with
      | startScenario hscenario _ =>
          exact ih inner ⟨f, (List.of_mem_zip hmem).1, bindings, hf⟩ hscenario

/-- A scenario that is built by calls has a description, and at every depth the parameters of the
two are closed. -/
theorem Reachable.parameters_closed (h : s.Reachable) :
    ∃ d, s.describe = .ok d ∧ Alongside ParametersClosed s d := by
  obtain ⟨d, hdescribe, houtline⟩ := h.exists_describe
  refine ⟨d, hdescribe, ?_⟩
  exact h.everywhere_intact.alongside houtline fun _ _ hintact houtlined =>
    hintact.parametersClosed houtlined

theorem manager_parameters_closed :
    ∃ d, manager.describe = .ok d ∧ Alongside ParametersClosed manager d :=
  Reachable.parameters_closed manager_reachable

end Scenario

end Orchestration
