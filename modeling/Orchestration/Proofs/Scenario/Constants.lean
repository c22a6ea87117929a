import Orchestration.Proofs.Renaming.Basic
import Orchestration.Proofs.Scenario.Outline
import Orchestration.Proofs.Scenario.Substitution

namespace Orchestration

/-- The reference names a constant that the table has a value for. -/
def ParameterTable.writes (t : ParameterTable) : ValueReference → Bool
  | .constant ref => (t.constantValue? ref).isSome
  | .argument _ | .function _ => false

section Inlined

variable (table : ParameterTable)

namespace ParameterValue

mutual

/-- The value with the constants of a table written in, at every depth. -/
def inlined : ParameterValue → ParameterValue
  | .literal value => .literal value
  | .argument ref => .argument ref
  | .constant ref =>
    match table.constantValue? ref with
    | some value => .literal value
    | none => .constant ref
  | .function ref => .function ref
  | .list items => .list (inlinedItems items)
  | .map entries => .map (inlinedEntries entries)

def inlinedItems : List ParameterValue → List ParameterValue
  | [] => []
  | item :: items => item.inlined :: inlinedItems items

def inlinedEntries : List (String × ParameterValue) → List (String × ParameterValue)
  | [] => []
  | (key, value) :: entries => (key, value.inlined) :: inlinedEntries entries

end

end ParameterValue

def Endpoint.inlined (e : Endpoint) : Endpoint :=
  ⟨e.address.inlined table, e.port.map (ParameterValue.inlined table)⟩

def JobLaunch.inlined (j : JobLaunch) : JobLaunch :=
  { j with
    arguments := ParameterValue.inlinedEntries table j.arguments
    endpoint := j.endpoint.map (Endpoint.inlined table) }

end Inlined

mutual

/-- The scenario with its constants written into its functions, and likewise at every depth. What is
bound to an embedded scenario has the constants of the scenario that binds it. -/
def Scenario.inlined : Scenario → Scenario
  | ⟨name, description, scope, parameters, functions, ids, registry⟩ =>
    ⟨name, description, scope, parameters, inlinedFunctions parameters functions, ids, registry⟩

def inlinedFunctions (table : ParameterTable) : List ScenarioFunction → List ScenarioFunction
  | [] => []
  | ⟨id, payload, wait⟩ :: rest => ⟨id, payload.inlined table, wait⟩ :: inlinedFunctions table rest

def Payload.inlined (table : ParameterTable) : Payload → Payload
  | .startJob job => .startJob (job.inlined table)
  | .stopJobs targets => .stopJobs targets
  | .startScenario inner bindings =>
    .startScenario inner.inlined (ParameterValue.inlinedEntries table bindings)
  | .stopScenario target => .stopScenario target

end

def ScenarioFunction.inlined (table : ParameterTable) (f : ScenarioFunction) : ScenarioFunction :=
  ⟨f.id, f.payload.inlined table, f.wait⟩

section Values

variable {table : ParameterTable}

namespace ParameterValue

theorem inlinedEntries_eq_map (entries : List (String × ParameterValue)) :
    inlinedEntries table entries = entries.map (Prod.map id (inlined table)) := by
  induction entries with
  | nil => rw [inlinedEntries, List.map_nil]
  | cons entry entries ih =>
      obtain ⟨key, value⟩ := entry
      rw [inlinedEntries, ih]
      rfl

mutual

/-- All references stay, other than to the constants that were written in. -/
theorem references_inlined (v : ParameterValue) :
    (v.inlined table).references = v.references.filter fun r => !table.writes r := by
  cases v with
  | literal value => simp [inlined, references]
  | argument ref => simp [inlined, references, ParameterTable.writes]
  | constant ref =>
      cases hvalue : table.constantValue? ref <;>
        simp [inlined, references, ParameterTable.writes, hvalue]
  | function ref => simp [inlined, references, ParameterTable.writes]
  | list items => simpa [inlined, references] using itemReferences_inlined items
  | map entries => simpa [inlined, references] using entryReferences_inlined entries

theorem itemReferences_inlined (items : List ParameterValue) :
    itemReferences (inlinedItems table items) =
      (itemReferences items).filter fun r => !table.writes r := by
  cases items with
  | nil => simp [inlinedItems, itemReferences]
  | cons item items =>
      simp only [inlinedItems, itemReferences, List.filter_append]
      rw [references_inlined item, itemReferences_inlined items]

theorem entryReferences_inlined (entries : List (String × ParameterValue)) :
    entryReferences (inlinedEntries table entries) =
      (entryReferences entries).filter fun r => !table.writes r := by
  cases entries with
  | nil => simp [inlinedEntries, entryReferences]
  | cons entry entries =>
      obtain ⟨key, value⟩ := entry
      simp only [inlinedEntries, entryReferences, List.filter_append]
      rw [references_inlined value, entryReferences_inlined entries]

end

theorem mem_references_inlined {v : ParameterValue} {r : ValueReference} :
    r ∈ (v.inlined table).references ↔ r ∈ v.references ∧ table.writes r = false := by
  simp [references_inlined]

end ParameterValue

namespace JobLaunch

theorem values_inlined (j : JobLaunch) :
    (j.inlined table).values = j.values.map (ParameterValue.inlined table) := by
  obtain ⟨job, entity, offset, arguments, endpoint⟩ := j
  simp only [values, inlined, ParameterValue.inlinedEntries_eq_map, List.map_append, List.map_map]
  congr 1
  cases endpoint with
  | none => rfl
  | some endpoint =>
      obtain ⟨address, port⟩ := endpoint
      cases port <;> simp [Endpoint.values, Endpoint.inlined]

theorem keys_inlined (j : JobLaunch) :
    Entries.keys (j.inlined table).arguments = Entries.keys j.arguments := by
  rw [inlined, ParameterValue.inlinedEntries_eq_map, Entries.keys_map_values]

theorem check_inlined (registry : JobRegistry) (j : JobLaunch) :
    registry.check (j.inlined table) = registry.check j :=
  JobRegistry.check_congr rfl j.keys_inlined

end JobLaunch

namespace Payload

theorem values_inlined (p : Payload) :
    (p.inlined table).values = p.values.map (ParameterValue.inlined table) := by
  cases p with
  | startJob job => simp only [inlined, values, job.values_inlined]
  | startScenario inner bindings =>
      simp [inlined, values, ParameterValue.inlinedEntries_eq_map]
  | stopJobs _ | stopScenario _ => simp [inlined, values]

@[simp] theorem inlined_kind (p : Payload) : (p.inlined table).kind = p.kind := by
  cases p <;> simp only [inlined, kind]

@[simp] theorem inlined_job? (p : Payload) :
    (p.inlined table).job? = p.job?.map (JobLaunch.inlined table) := by
  cases p <;> simp [inlined, job?]

@[simp] theorem inlined_started? (p : Payload) :
    (p.inlined table).started? = p.started?.map fun started =>
      (started.1.inlined, ParameterValue.inlinedEntries table started.2) := by
  cases p <;> simp [inlined, started?]

end Payload

theorem inlinedFunctions_eq_map (functions : List ScenarioFunction) :
    inlinedFunctions table functions = functions.map (ScenarioFunction.inlined table) := by
  induction functions with
  | nil => rw [inlinedFunctions, List.map_nil]
  | cons f rest ih =>
      obtain ⟨id, payload, wait⟩ := f
      rw [inlinedFunctions, ih]
      rfl

end Values

namespace Scenario

section Fields

variable (s : Scenario)

@[simp] theorem inlined_name : s.inlined.name = s.name := by
  cases s
  rw [inlined]

@[simp] theorem inlined_scope : s.inlined.scope = s.scope := by
  cases s
  rw [inlined]

@[simp] theorem inlined_parameters : s.inlined.parameters = s.parameters := by
  cases s
  rw [inlined]

@[simp] theorem inlined_registry : s.inlined.registry = s.registry := by
  cases s
  rw [inlined]

@[simp] theorem inlined_functions :
    s.inlined.functions = s.functions.map (ScenarioFunction.inlined s.parameters) := by
  cases s
  rw [inlined, inlinedFunctions_eq_map]

@[simp] theorem inlined_function? (id : FunctionId) : s.inlined.function? id =
    (s.function? id).map (ScenarioFunction.inlined s.parameters) := by
  rw [function?, function?, inlined_functions]
  exact Bisection.find?_map (ScenarioFunction.inlined s.parameters) (fun _ => rfl) s.functions

end Fields

section Coherence

variable {s inner : Scenario}

theorem Starts.of_inlined {other : Scenario} (h : s.inlined.Starts other) :
    ∃ inner, s.Starts inner ∧ inner.inlined = other := by
  obtain ⟨_, hmem, bindings, hstarts⟩ := h
  rw [inlined_functions] at hmem
  obtain ⟨⟨id, payload, wait⟩, hf, rfl⟩ := List.mem_map.mp hmem
  cases payload with
  | startScenario inner bound =>
      cases hstarts
      exact ⟨inner, ⟨⟨id, .startScenario inner bound, wait⟩, hf, bound, rfl⟩, rfl⟩
  | startJob _ | stopJobs _ | stopScenario _ => cases hstarts

/-- What holds of every level makes something hold of it with its constants written in. -/
theorem Everywhere.inlined {P Q : Scenario → Prop} (h : s.Everywhere P)
    (himp : ∀ level, P level → Q level.inlined) : s.inlined.Everywhere Q := by
  induction h with
  | intro here _ ih =>
      refine .intro (himp _ here) ?_
      intro other hstarts
      obtain ⟨inner, hinner, rfl⟩ := hstarts.of_inlined
      exact ih inner hinner

theorem Names.inlined {r : Reference} {f : ScenarioFunction} (h : s.Names r f) :
    ∃ g, s.inlined.Names r g ∧ g.kind = f.kind := by
  obtain ⟨scope, host, id⟩ := r
  obtain ⟨hscope, hf⟩ := h
  cases host with
  | none =>
      refine ⟨f.inlined s.parameters, ⟨hscope.trans s.inlined_scope.symm, ?_⟩,
        f.payload.inlined_kind⟩
      rw [inlined_function?, hf, Option.map_some]
  | some host =>
      obtain ⟨h, inner, bindings, hhost, hstarts, hinner⟩ := hf
      refine ⟨f.inlined inner.parameters, ⟨hscope.trans s.inlined_scope.symm,
        h.inlined s.parameters, inner.inlined,
        ParameterValue.inlinedEntries s.parameters bindings, ?_, ?_, ?_⟩, f.payload.inlined_kind⟩
      · rw [inlined_function?, hhost, Option.map_some]
      · rw [ScenarioFunction.inlined, hstarts, Payload.inlined]
      · rw [inlined_function?, hinner, Option.map_some]

theorem Resolves.inlined {r : Reference} (h : s.Resolves r) : s.inlined.Resolves r := by
  obtain ⟨f, hf⟩ := h
  obtain ⟨g, hg, -⟩ := hf.inlined
  exact ⟨g, hg⟩

theorem NamesOwn.inlined {kind : FunctionKind} {r : Reference} (h : s.NamesOwn kind r) :
    s.inlined.NamesOwn kind r := by
  obtain ⟨hhost, f, hf, hkind⟩ := h
  obtain ⟨g, hg, hsame⟩ := hf.inlined
  exact ⟨hhost, g, hg, hsame.trans hkind⟩

theorem HoldsAll.inlined {value : ParameterValue} (h : s.HoldsAll value) :
    s.inlined.HoldsAll (value.inlined s.parameters) := by
  intro r hr
  have hholds := h r (ParameterValue.mem_references_inlined.mp hr).1
  cases r with
  | argument ref | constant ref => simpa only [Holds, inlined_parameters] using hholds
  | function ref => exact Resolves.inlined hholds

theorem Binds.inlined {bindings : Entries String ParameterValue} (h : s.Binds inner bindings) :
    s.inlined.Binds inner.inlined (ParameterValue.inlinedEntries s.parameters bindings) := by
  rw [ParameterValue.inlinedEntries_eq_map]
  constructor
  · simpa using h.scope_ne
  · simpa only [inlined_parameters, Entries.keys_map_values] using h.complete
  · rw [List.forall_mem_map, inlined_parameters]
    exact h.declared
  · rw [List.forall_mem_map]
    exact fun b hb r hr => h.functionFree b hb r (ParameterValue.mem_references_inlined.mp hr).1
  · rw [List.forall_mem_map]
    exact fun b hb => (h.held b hb).inlined

theorem Admits.inlined {payload : Payload} (h : s.Admits payload) :
    s.inlined.Admits (payload.inlined s.parameters) := by
  cases payload with
  | startJob job =>
      obtain ⟨hcheck, hvalues⟩ := h
      rw [Payload.inlined]
      refine ⟨?_, ?_⟩
      · rw [inlined_registry, job.check_inlined]
        exact hcheck
      · rw [job.values_inlined, List.forall_mem_map]
        exact fun v hv => (hvalues v hv).inlined
  | stopJobs targets =>
      rw [Payload.inlined]
      exact fun r hr => (h r hr).inlined
  | startScenario inner bindings =>
      rw [Payload.inlined]
      exact Binds.inlined h
  | stopScenario target =>
      rw [Payload.inlined]
      exact NamesOwn.inlined h

theorem Coherent.inlined (h : s.Coherent) : s.inlined.Coherent := by
  have hids : s.inlined.functions.map ScenarioFunction.id =
      s.functions.map ScenarioFunction.id := by
    rw [inlined_functions, List.map_map]
    rfl
  refine ⟨?_, hids ▸ h.ids, ?_, ?_, ?_⟩
  · rw [inlined_parameters]
    exact h.names
  · rw [inlined_functions, List.forall_mem_map]
    exact fun f hf r hr => (h.waits f hf r hr).inlined
  · rw [inlined_functions, List.forall_mem_map]
    exact fun f hf => (h.payloads f hf).inlined
  · obtain ⟨rank, hrank⟩ := h.ranked
    refine ⟨rank, ?_⟩
    rw [inlined_functions, List.forall_mem_map]
    exact hrank

/-- All constants of a coherent level are written in. -/
theorem Coherent.not_mentions_constant (h : s.Coherent) {value : ParameterValue}
    (hvalue : s.inlined.Stores value) (ref : ConstantRef) : ¬ value.Mentions (.constant ref) := by
  obtain ⟨_, hfunction, hvalue⟩ := hvalue
  rw [inlined_functions] at hfunction
  obtain ⟨f, hf, rfl⟩ := List.mem_map.mp hfunction
  rw [ScenarioFunction.inlined, Payload.values_inlined] at hvalue
  obtain ⟨v, hv, rfl⟩ := List.mem_map.mp hvalue
  intro hmentions
  obtain ⟨hmem, hwrites⟩ := ParameterValue.mem_references_inlined.mp hmentions.mem_references
  obtain ⟨hscope, hname⟩ := h.holdsAll_of_stores ⟨f, hf, hv⟩ _ hmem
  simp [ParameterTable.writes, ParameterTable.constantValue?, hscope, hname] at hwrites

end Coherence

end Scenario

section Writing

namespace ParameterValue

variable (s : Scenario) (argument : ArgumentRef → Except Failure Json)

mutual

theorem resolveWith_inlined (value : ParameterValue) :
    (value.inlined s.parameters).resolveWith s.inlined argument =
      value.resolveWith s argument := by
  cases value with
  | literal value | argument ref | function ref => simp only [inlined, resolveWith]
  | constant ref =>
      cases hvalue : s.parameters.constantValue? ref <;>
        simp [inlined, resolveWith, hvalue, Scenario.unresolved]
  | list items => simp only [inlined, resolveWith, resolveItems_inlined items]
  | map entries => simp only [inlined, resolveWith, resolveEntries_inlined entries]

theorem resolveItems_inlined (items : List ParameterValue) :
    resolveItems s.inlined argument (inlinedItems s.parameters items) =
      resolveItems s argument items := by
  cases items with
  | nil => simp only [inlinedItems, resolveItems]
  | cons item items =>
      simp only [inlinedItems, resolveItems, resolveWith_inlined item, resolveItems_inlined items]

theorem resolveEntries_inlined (entries : List (String × ParameterValue)) :
    resolveEntries s.inlined argument (inlinedEntries s.parameters entries) =
      resolveEntries s argument entries := by
  cases entries with
  | nil => simp only [inlinedEntries, resolveEntries]
  | cons entry entries =>
      obtain ⟨key, value⟩ := entry
      simp only [inlinedEntries, resolveEntries, resolveWith_inlined value,
        resolveEntries_inlined entries]

end

end ParameterValue

mutual

/-- A description shows the value of a constant, whether or not it was written in before. -/
theorem Scenario.outline_inlined (s : Scenario) : s.inlined.outline = s.outline := by
  obtain ⟨name, description, scope, parameters, functions, ids, registry⟩ := s
  have hfunctions := outlineFunctions_inlined
    ⟨name, description, scope, parameters, functions, ids, registry⟩ functions
  rw [Scenario.inlined] at hfunctions ⊢
  simp only [Scenario.outline, hfunctions]

theorem outlineFunctions_inlined (owner : Scenario) (functions : List ScenarioFunction) :
    outlineFunctions owner.inlined (inlinedFunctions owner.parameters functions) =
      outlineFunctions owner functions := by
  cases functions with
  | nil => simp only [inlinedFunctions, outlineFunctions]
  | cons f rest =>
      obtain ⟨id, payload, wait⟩ := f
      simp only [inlinedFunctions, outlineFunctions, outlinePayload_inlined owner payload,
        outlineFunctions_inlined owner rest, Payload.inlined_kind]

theorem outlinePayload_inlined (owner : Scenario) (payload : Payload) :
    outlinePayload owner.inlined (payload.inlined owner.parameters) =
      outlinePayload owner payload := by
  have hvalues : ∀ entries, owner.inlined.resolveValues
      (ParameterValue.inlinedEntries owner.parameters entries) = owner.resolveValues entries :=
    ParameterValue.resolveEntries_inlined owner _
  cases payload with
  | startJob job => simp only [Payload.inlined, JobLaunch.inlined, outlinePayload, hvalues]
  | stopJobs targets => simp only [Payload.inlined, outlinePayload]
  | startScenario inner bindings =>
      simp only [Payload.inlined, outlinePayload, hvalues, Scenario.outline_inlined inner,
        Scenario.inlined_name]
  | stopScenario target => simp only [Payload.inlined, outlinePayload]

end

end Writing

namespace Scenario

section Extraction

variable (s inner : Scenario)

theorem resolveValue_inlined (value : ParameterValue) :
    s.inlined.resolveValue (value.inlined s.parameters) = s.resolveValue value :=
  value.resolveWith_inlined s _

theorem boundArgument_inlined (bindings : Entries String ParameterValue) :
    s.inlined.boundArgument inner.inlined
        (ParameterValue.inlinedEntries s.parameters bindings) =
      s.boundArgument inner bindings := by
  funext ref
  rw [boundArgument, boundArgument, ParameterValue.inlinedEntries_eq_map,
    Entries.find?_map_values]
  cases Entries.find? ref.name bindings with
  | none => simp only [Option.map_none, inlined_parameters]
  | some value => exact s.resolveValue_inlined value

/-- The constants of the embedded scenario are written into its values, those of the scenario that
starts it into what is bound. -/
theorem resolveThrough_inlined (bindings : Entries String ParameterValue)
    (value : ParameterValue) :
    s.inlined.resolveThrough inner.inlined
        (ParameterValue.inlinedEntries s.parameters bindings) (value.inlined inner.parameters) =
      s.resolveThrough inner bindings value := by
  rw [resolveThrough, resolveThrough, boundArgument_inlined]
  exact value.resolveWith_inlined inner _

theorem endpoint_resolve_inlined {table : ParameterTable} {e : Endpoint}
    {value value' : ParameterValue → Except Failure Json}
    (hvalue : ∀ v, value' (v.inlined table) = value v) :
    (e.inlined table).resolve value' = e.resolve value := by
  obtain ⟨address, port⟩ := e
  cases port <;> simp only [Endpoint.resolve, Endpoint.inlined, hvalue, Option.map]

/-- The predicate looks only at the name of the job, the entity and the argument keys. -/
def asking (asks : String → String → List String → Bool) (launch : JobLaunch) : Bool :=
  asks launch.job launch.entity (Entries.keys launch.arguments)

variable (asks : String → String → List String → Bool)

theorem extracted_matchOf_inlined {table : ParameterTable} {reference : Reference}
    {f : ScenarioFunction} {value value' : ParameterValue → Except Failure Json}
    (hvalue : ∀ v, value' (v.inlined table) = value v) :
    (matchOf (asking asks) value' reference (f.inlined table)).map JobMatch.extracted =
      (matchOf (asking asks) value reference f).map JobMatch.extracted := by
  have hjob : (f.inlined table).job? = f.job?.map (JobLaunch.inlined table) :=
    f.payload.inlined_job?
  rw [matchOf, matchOf, hjob]
  cases f.job? with
  | none => rfl
  | some launch =>
      have hasking : asking asks (launch.inlined table) = asking asks launch := by
        rw [asking, launch.keys_inlined]
        rfl
      have hendpoint : ((launch.inlined table).endpoint.map fun e => e.resolve value') =
          launch.endpoint.map fun e => e.resolve value := by
        rw [JobLaunch.inlined, Option.map_map]
        congr 1
        funext e
        exact endpoint_resolve_inlined hvalue
      simp only [Option.map_some, hasking, hendpoint]
      split <;> rfl

theorem extracted_matchesOf_inlined (f : ScenarioFunction) :
    (s.inlined.matchesOf (asking asks) (f.inlined s.parameters)).map JobMatch.extracted =
      (s.matchesOf (asking asks) f).map JobMatch.extracted := by
  have hstarted : (f.inlined s.parameters).started? = f.started?.map fun started =>
      (started.1.inlined, ParameterValue.inlinedEntries s.parameters started.2) :=
    f.payload.inlined_started?
  rw [matchesOf, matchesOf, List.map_append, List.map_append, inlined_scope, hstarted]
  congr 1
  · exact extracted_matchOf_inlined asks s.resolveValue_inlined
  · cases f.started? with
    | none => rfl
    | some started =>
        obtain ⟨inner, bindings⟩ := started
        simp only [Option.map_some, inlined_functions, List.flatMap_map, List.map_flatMap]
        congr 1
        funext g
        exact extracted_matchOf_inlined asks (s.resolveThrough_inlined inner bindings)

theorem extractJobs_inlined :
    s.inlined.extractJobs (asking asks) = s.extractJobs (asking asks) := by
  have hmatches : (s.inlined.jobMatches (asking asks)).map JobMatch.extracted =
      (s.jobMatches (asking asks)).map JobMatch.extracted := by
    simp only [jobMatches, inlined_functions, List.flatMap_map, List.map_flatMap,
      extracted_matchesOf_inlined]
  rw [extractJobs, extractJobs, hmatches]

end Extraction

/-- A scenario with all constants written in, at every depth, passes the check and has the same
description. It has the same jobs, with the same end points and so the same legends, for every
question that does not look at the values of a launch. -/
theorem Reachable.inlined_transparent {s : Scenario} (h : s.Reachable) :
    (s.inlined.Everywhere fun level => ∀ value, level.Stores value →
      ∀ ref, ¬ value.Mentions (.constant ref)) ∧
    s.inlined.validate = .ok () ∧ s.inlined.describe = s.describe ∧
    (∀ style, s.inlined.toText style = s.toText style) ∧
    ∀ asks, s.inlined.extractJobs (asking asks) = s.extractJobs (asking asks) := by
  have hcoherent : s.Everywhere Coherent := h.everywhere_intact.coherent
  have hvalid : s.inlined.validate = .ok () :=
    validate_eq_ok_iff.mpr (hcoherent.inlined fun _ => Coherent.inlined)
  have hdescribe : s.inlined.describe = s.describe := by
    rw [describe, describe, hvalid, validate_eq_ok_iff.mpr hcoherent, s.outline_inlined]
  refine ⟨?_, hvalid, hdescribe, ?_, s.extractJobs_inlined⟩
  · refine hcoherent.inlined ?_
    exact fun level hlevel value hvalue ref => hlevel.not_mentions_constant hvalue ref
  · intro style
    rw [toText, toText, hdescribe]

section Sample

/-- The port of the station stands in the list that is bound to the address of the probe. -/
theorem station_inlined_transparent :
    station.Reachable ∧ station.inlined.validate = .ok () ∧
      station.inlined.Stores (.list [.argument ⟨.root 3, "address"⟩, .literal (.ofNat 8080)]) ∧
      ∃ j ∈ station.inlined.extractJobs (asking fun job _ _ => job = "hping"),
        j.endpoint = some ⟨.array [.string "$address", .ofNat 8080], some (.ofNat 80)⟩ := by
  obtain ⟨-, hvalid, -, -, hextract⟩ := station_reachable.inlined_transparent
  have hstores :
      station.inlined.Stores (.list [.argument ⟨.root 3, "address"⟩, .literal (.ofNat 8080)]) :=
    ⟨_, List.mem_cons_of_mem _ (List.mem_singleton_self _), List.mem_singleton_self _⟩
  have hjobs : (station.jobMatches (asking fun job _ _ => job = "hping")).map JobMatch.extracted =
      [⟨.nested (.root 3) 1 0, "hping", "client",
        some ⟨.array [.string "$address", .ofNat 8080], some (.ofNat 80)⟩⟩] := by
    rfl
  refine ⟨station_reachable, hvalid, hstores, ?_⟩
  rw [hextract, extractJobs, hjobs]
  exact ⟨_, List.mem_mergeSort.mpr (List.mem_singleton_self _), rfl⟩

end Sample

end Scenario

end Orchestration
