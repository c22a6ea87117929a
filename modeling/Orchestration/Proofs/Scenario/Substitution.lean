import Orchestration.Proofs.Scenario.Reachable
import Orchestration.Proofs.Scenario.Values
import Orchestration.Scenario.Extract

/-!
Values of an embedded scenario in the terms of the scenario that starts it. To write such a value
out with what is bound is to put what is bound in place of the arguments and to write out the result
where it was bound, so that nothing of the embedded scenario's own parameters is left.
-/

namespace Orchestration

namespace ParameterValue

mutual

/-- The value with what is bound in place of the arguments of a table, or else their defaults, and
with the values of its constants. What was bound is put in as it stands. There is no result for an
argument with neither, or for a constant that the table does not have. -/
def substitute? (table : ParameterTable) (bindings : Entries String ParameterValue) :
    ParameterValue → Option ParameterValue
  | .literal value => some (.literal value)
  | .argument ref =>
    match Entries.find? ref.name bindings with
    | some bound => some bound
    | none => ((table.argument? ref.name).bind Argument.default).map .literal
  | .constant ref => (table.constant? ref.name).map fun c => .literal c.value
  | .function ref => some (.function ref)
  | .list items => (substituteItems? table bindings items).map .list
  | .map entries => (substituteEntries? table bindings entries).map .map

def substituteItems? (table : ParameterTable) (bindings : Entries String ParameterValue) :
    List ParameterValue → Option (List ParameterValue)
  | [] => some []
  | item :: items => do
    let item ← item.substitute? table bindings
    let items ← substituteItems? table bindings items
    return item :: items

def substituteEntries? (table : ParameterTable) (bindings : Entries String ParameterValue) :
    List (String × ParameterValue) → Option (List (String × ParameterValue))
  | [] => some []
  | (key, value) :: entries => do
    let value ← value.substitute? table bindings
    let entries ← substituteEntries? table bindings entries
    return (key, value) :: entries

end

end ParameterValue

/-- The values that stand in a payload. -/
def Payload.values : Payload → List ParameterValue
  | .startJob job => job.values
  | .startScenario _ bindings => bindings.map Prod.snd
  | .stopJobs _ | .stopScenario _ => []

namespace Scenario

open ParameterValue

variable {s inner : Scenario} {bindings : Entries String ParameterValue}

/-- The value stands in a function of the scenario. -/
def Stores (s : Scenario) (value : ParameterValue) : Prop :=
  ∃ f ∈ s.functions, value ∈ f.payload.values

theorem Coherent.holdsAll_of_stores (hs : s.Coherent) {value : ParameterValue}
    (h : s.Stores value) : s.HoldsAll value := by
  obtain ⟨f, hf, hvalue⟩ := h
  have hadmits := hs.payloads f hf
  cases hp : f.payload with
  | startJob job =>
      rw [hp] at hadmits hvalue
      exact hadmits.2 value hvalue
  | startScenario inner bindings =>
      rw [hp] at hadmits hvalue
      obtain ⟨binding, hbinding, rfl⟩ := List.mem_map.mp hvalue
      exact hadmits.held binding hbinding
  | stopJobs _ | stopScenario _ =>
      rw [hp] at hvalue
      cases hvalue

/-- What a reference of a substituted value names is there; functions may be those of the embedded
scenario. -/
def Settles (s : Scenario) (r : ValueReference) : Prop := r.isFunction = true ∨ s.Holds r

section Existence

/-- An argument of an embedded scenario has a value: a bound one, or its default. -/
theorem Binds.exists_substitute?_argument (hbinds : s.Binds inner bindings) {ref : ArgumentRef}
    (hname : (inner.parameters.argument? ref.name).isSome) :
    ∃ tree, (ParameterValue.argument ref).substitute? inner.parameters bindings = some tree ∧
      ∀ r ∈ tree.references, s.Settles r := by
  cases hfind : Entries.find? ref.name bindings with
  | some bound =>
      refine ⟨bound, by simp [substitute?, hfind], ?_⟩
      exact fun r hr => .inr (hbinds.held _ (Entries.mem_of_find? hfind) r hr)
  | none =>
      obtain ⟨a, ha⟩ := Option.isSome_iff_exists.mp hname
      have hunbound : a.name ∉ Entries.keys bindings := by
        have haname : a.name = ref.name := by simpa using List.find?_some ha
        rw [haname, ← Entries.find?_isSome_iff, hfind]
        simp
      cases hdefault : a.default with
      | none =>
          have hrequired : a ∈ inner.parameters.required := by
            refine List.mem_filter.mpr ⟨List.mem_of_find?_eq_some ha, ?_⟩
            simp [Argument.isRequired, hdefault]
          exact absurd (hbinds.complete a hrequired) hunbound
      | some json =>
          refine ⟨.literal json, by simp [substitute?, hfind, ha, hdefault], ?_⟩
          simp [references]

mutual

theorem Binds.exists_substitute? (hbinds : s.Binds inner bindings) (value : ParameterValue)
    (h : ∀ r ∈ value.references, inner.Holds r) :
    ∃ tree, value.substitute? inner.parameters bindings = some tree ∧
      ∀ r ∈ tree.references, s.Settles r := by
  cases value with
  | literal value => exact ⟨.literal value, by simp [substitute?], by simp [references]⟩
  | argument ref =>
      exact hbinds.exists_substitute?_argument (h (.argument ref) (List.mem_singleton_self _)).2
  | constant ref =>
      obtain ⟨-, hname⟩ := h (.constant ref) (List.mem_singleton_self _)
      obtain ⟨c, hc⟩ := Option.isSome_iff_exists.mp hname
      exact ⟨.literal c.value, by simp [substitute?, hc], by simp [references]⟩
  | function ref =>
      exact ⟨.function ref, by simp [substitute?], by
        simp [references, Settles, ValueReference.isFunction]⟩
  | list items =>
      obtain ⟨trees, htrees, hsettled⟩ := hbinds.exists_substituteItems? items h
      exact ⟨.list trees, by simp [substitute?, htrees], hsettled⟩
  | map entries =>
      obtain ⟨trees, htrees, hsettled⟩ := hbinds.exists_substituteEntries? entries h
      exact ⟨.map trees, by simp [substitute?, htrees], hsettled⟩

theorem Binds.exists_substituteItems? (hbinds : s.Binds inner bindings)
    (items : List ParameterValue) (h : ∀ r ∈ itemReferences items, inner.Holds r) :
    ∃ trees, substituteItems? inner.parameters bindings items = some trees ∧
      ∀ r ∈ itemReferences trees, s.Settles r := by
  cases items with
  | nil => exact ⟨[], by simp [substituteItems?], by simp [itemReferences]⟩
  | cons item items =>
      rw [itemReferences, List.forall_mem_append] at h
      obtain ⟨tree, htree, hsettled⟩ := hbinds.exists_substitute? item h.1
      obtain ⟨trees, htrees, hrest⟩ := hbinds.exists_substituteItems? items h.2
      refine ⟨tree :: trees, by simp [substituteItems?, htree, htrees], ?_⟩
      exact List.forall_mem_append.mpr ⟨hsettled, hrest⟩

theorem Binds.exists_substituteEntries? (hbinds : s.Binds inner bindings)
    (entries : List (String × ParameterValue))
    (h : ∀ r ∈ entryReferences entries, inner.Holds r) :
    ∃ trees, substituteEntries? inner.parameters bindings entries = some trees ∧
      ∀ r ∈ entryReferences trees, s.Settles r := by
  cases entries with
  | nil => exact ⟨[], by simp [substituteEntries?], by simp [entryReferences]⟩
  | cons entry entries =>
      obtain ⟨key, value⟩ := entry
      rw [entryReferences, List.forall_mem_append] at h
      obtain ⟨tree, htree, hsettled⟩ := hbinds.exists_substitute? value h.1
      obtain ⟨trees, htrees, hrest⟩ := hbinds.exists_substituteEntries? entries h.2
      refine ⟨(key, tree) :: trees, by simp [substituteEntries?, htree, htrees], ?_⟩
      exact List.forall_mem_append.mpr ⟨hsettled, hrest⟩

end

end Existence

section Writing

theorem resolveThrough_argument {ref : ArgumentRef} {tree : ParameterValue}
    (h : (ParameterValue.argument ref).substitute? inner.parameters bindings = some tree) :
    s.resolveThrough inner bindings (.argument ref) = s.resolveValue tree := by
  rw [substitute?] at h
  simp only [resolveThrough, resolveWith, boundArgument]
  cases hfind : Entries.find? ref.name bindings with
  | some bound =>
      simp only [hfind, Option.some.injEq] at h
      rw [h]
  | none =>
      simp only [hfind, Option.map_eq_some_iff] at h
      obtain ⟨json, hjson, rfl⟩ := h
      rw [hjson]
      rfl

mutual

/-- Writing out with what is bound is writing out after substitution. -/
theorem resolveThrough_eq_resolveValue (value : ParameterValue)
    (hvalue : inner.HoldsConstants value) {tree : ParameterValue}
    (h : value.substitute? inner.parameters bindings = some tree) :
    s.resolveThrough inner bindings value = s.resolveValue tree := by
  cases value with
  | literal value | function ref =>
      obtain rfl := Option.some.inj (by simpa only [substitute?] using h)
      simp only [resolveThrough, resolveValue, resolveWith]
  | argument ref => exact resolveThrough_argument h
  | constant ref =>
      obtain ⟨hscope, -⟩ := hvalue ref (List.mem_singleton_self _)
      rw [substitute?, Option.map_eq_some_iff] at h
      obtain ⟨c, hc, rfl⟩ := h
      simp [resolveThrough, resolveValue, resolveWith, ParameterTable.constantValue?, hscope, hc]
  | list items =>
      rw [substitute?, Option.map_eq_some_iff] at h
      obtain ⟨trees, htrees, rfl⟩ := h
      simp only [resolveThrough, resolveValue, resolveWith,
        resolveItems_eq_of_substituteItems? items hvalue htrees]
  | map entries =>
      rw [substitute?, Option.map_eq_some_iff] at h
      obtain ⟨trees, htrees, rfl⟩ := h
      simp only [resolveThrough, resolveValue, resolveWith,
        resolveEntries_eq_of_substituteEntries? entries hvalue htrees]

theorem resolveItems_eq_of_substituteItems? (items : List ParameterValue)
    (hitems : ∀ ref, .constant ref ∈ itemReferences items → inner.Holds (.constant ref))
    {trees : List ParameterValue}
    (h : substituteItems? inner.parameters bindings items = some trees) :
    resolveItems inner (s.boundArgument inner bindings) items =
      resolveItems s (fun ref => return ref.unbound) trees := by
  cases items with
  | nil =>
      obtain rfl := Option.some.inj (by simpa only [substituteItems?] using h)
      simp only [resolveItems]
  | cons item items =>
      simp only [substituteItems?, Option.bind_eq_bind, Option.bind_eq_some_iff, Option.pure_def,
        Option.some.injEq] at h
      obtain ⟨tree, htree, trees, htrees, rfl⟩ := h
      have hitem := resolveThrough_eq_resolveValue item
        (fun ref href => hitems ref (List.mem_append_left _ href)) htree
      have hrest := resolveItems_eq_of_substituteItems? items
        (fun ref href => hitems ref (List.mem_append_right _ href)) htrees
      rw [resolveThrough, resolveValue] at hitem
      rw [resolveItems, resolveItems, hitem, hrest]

theorem resolveEntries_eq_of_substituteEntries? (entries : List (String × ParameterValue))
    (hentries : ∀ ref, .constant ref ∈ entryReferences entries → inner.Holds (.constant ref))
    {trees : List (String × ParameterValue)}
    (h : substituteEntries? inner.parameters bindings entries = some trees) :
    resolveEntries inner (s.boundArgument inner bindings) entries =
      resolveEntries s (fun ref => return ref.unbound) trees := by
  cases entries with
  | nil =>
      obtain rfl := Option.some.inj (by simpa only [substituteEntries?] using h)
      simp only [resolveEntries]
  | cons entry entries =>
      obtain ⟨key, value⟩ := entry
      simp only [substituteEntries?, Option.bind_eq_bind, Option.bind_eq_some_iff,
        Option.pure_def, Option.some.injEq] at h
      obtain ⟨tree, htree, trees, htrees, rfl⟩ := h
      have hvalue := resolveThrough_eq_resolveValue value
        (fun ref href => hentries ref (List.mem_append_left _ href)) htree
      have hrest := resolveEntries_eq_of_substituteEntries? entries
        (fun ref href => hentries ref (List.mem_append_right _ href)) htrees
      rw [resolveThrough, resolveValue] at hvalue
      rw [resolveEntries, resolveEntries, hvalue, hrest]

end

end Writing

/-- Whatever an embedded scenario holds can be written out with what is bound. -/
theorem Binds.exists_resolveThrough (hbinds : s.Binds inner bindings) {value : ParameterValue}
    (h : inner.HoldsAll value) :
    ∃ tree json, value.substitute? inner.parameters bindings = some tree ∧
      s.resolveThrough inner bindings value = .ok json ∧ s.resolveValue tree = .ok json ∧
      ValueWritten s.parameters.constants tree json ∧
      ∀ r, tree.Mentions r → r.isFunction = false → s.Holds r := by
  obtain ⟨tree, htree, hsettled⟩ := hbinds.exists_substitute? value h
  have hholds : ∀ r, tree.Mentions r → r.isFunction = false → s.Holds r := by
    intro r hr hfunction
    rcases hsettled r hr.mem_references with hsettled | hsettled
    · rw [hsettled] at hfunction
      cases hfunction
    · exact hsettled
  obtain ⟨json, hjson, hwritten⟩ := exists_resolveValue tree fun ref href =>
    hholds _ (mentions_of_mem_references tree href) rfl
  have hthrough := resolveThrough_eq_resolveValue (s := s) value h.holdsConstants htree
  exact ⟨tree, json, htree, hthrough.trans hjson, hjson, hwritten, hholds⟩

/-- A value of an embedded scenario can be written out with what is bound, and then it says what its
substitution says in the terms of the scenario that binds. Of the parameters of the embedded
scenario nothing is left, whether or not they share their names with others. -/
theorem Reachable.resolveThrough_substitutes (h : s.Reachable) {host : ScenarioFunction}
    (hhost : host ∈ s.functions) (hstarts : host.payload = .startScenario inner bindings)
    {value : ParameterValue} (hvalue : inner.Stores value) :
    ∃ tree json, value.substitute? inner.parameters bindings = some tree ∧
      s.resolveThrough inner bindings value = .ok json ∧ s.resolveValue tree = .ok json ∧
      ValueWritten s.parameters.constants tree json ∧
      (∀ ref, tree.Mentions (.argument ref) → ref.scope = s.scope ∧ ref.scope ≠ inner.scope ∧
        ref.name ∈ s.parameters.arguments.map Argument.name) ∧
      ∀ ref, tree.Mentions (.constant ref) → ref.scope = s.scope ∧ ref.scope ≠ inner.scope ∧
        ref.name ∈ s.parameters.constants.map Constant.name := by
  have hintact := h.everywhere_intact
  have hbinds : s.Binds inner bindings := by
    have hadmits := hintact.here.payloads host hhost
    rwa [hstarts] at hadmits
  have hinner := (hintact.inside ⟨host, hhost, bindings, hstarts⟩).here
  obtain ⟨tree, json, htree, hthrough, hjson, hwritten, hholds⟩ :=
    hbinds.exists_resolveThrough (hinner.holdsAll_of_stores hvalue)
  refine ⟨tree, json, htree, hthrough, hjson, hwritten, ?_, ?_⟩
  · intro ref href
    obtain ⟨hscope, hname⟩ := hholds _ href rfl
    rw [hintact.here.table] at hscope
    refine ⟨hscope, ?_, ParameterTable.argument?_isSome_iff.mp hname⟩
    exact hscope ▸ hbinds.scope_ne.symm
  · intro ref href
    obtain ⟨hscope, hname⟩ := hholds _ href rfl
    rw [hintact.here.table] at hscope
    refine ⟨hscope, ?_, ParameterTable.constant?_isSome_iff.mp hname⟩
    exact hscope ▸ hbinds.scope_ne.symm

section Sample

/-- A launch in the terms of the scenario `probe`. -/
def probing : JobLaunch where
  job := "hping"
  entity := "client"
  arguments :=
    [("place", .list [.argument ⟨.root 2, "address"⟩, .constant ⟨.root 2, "port"⟩])]
  endpoint := some ⟨.argument ⟨.root 2, "address"⟩, some (.constant ⟨.root 2, "port"⟩)⟩

/-- A scenario whose one job watches an address from outside, at a port of its own. -/
def probe : Scenario :=
  (((create (.root 2) "probe" "").after (.addArgument "address" "" none)).after
    (.addConstant "port" (.ofNat 80))).after (.startJob probing {})

/-- What the scenario `station` binds to the address of the probe. -/
def placing : Entries String ParameterValue :=
  [("address", .list [.argument ⟨.root 3, "address"⟩, .constant ⟨.root 3, "port"⟩])]

/-- A scenario that starts the probe after a job of its own and has parameters of the same
names. -/
def station : Scenario :=
  ((((create (.root 3) "station" "").after (.addArgument "address" "" none)).after
    (.addConstant "port" (.ofNat 8080))).after
    (.startJob { job := "fping", entity := "server" } {})).after
    (.startScenario probe placing {})

theorem probe_reachable : probe.Reachable := by
  refine .called (.called (.called (.created _ _ _ _) _ ?_) _ ?_) _ ?_
  all_goals simp [Call.embedded?]

theorem station_reachable : station.Reachable := by
  refine .called (.called (.called (.called (.created _ _ _ _) _ ?_) _ ?_) _ ?_) _ ?_
  case refine_4 =>
    rintro inner ⟨⟩
    exact probe_reachable
  all_goals simp [Call.embedded?]

theorem station_starts_probe : ⟨1, .startScenario probe placing, {}⟩ ∈ station.functions :=
  List.mem_cons_of_mem _ (List.mem_singleton_self _)

/-- What is bound is said with the parameters of the station, the other port is the probe's. -/
theorem station_resolveThrough_substitutes :
    station.Reachable ∧ ⟨1, .startScenario probe placing, {}⟩ ∈ station.functions ∧
      probe.Stores (.list [.argument ⟨.root 2, "address"⟩, .constant ⟨.root 2, "port"⟩]) ∧
      station.resolveThrough probe placing
          (.list [.argument ⟨.root 2, "address"⟩, .constant ⟨.root 2, "port"⟩]) =
        .ok (.array [.array [.string "$address", .ofNat 8080], .ofNat 80]) := by
  have hstores :
      probe.Stores (.list [.argument ⟨.root 2, "address"⟩, .constant ⟨.root 2, "port"⟩]) :=
    ⟨⟨0, .startJob probing, {}⟩, List.mem_singleton_self _, List.mem_cons_self⟩
  refine ⟨station_reachable, station_starts_probe, hstores, ?_⟩
  obtain ⟨tree, json, htree, hthrough, hjson, -⟩ :=
    station_reachable.resolveThrough_substitutes station_starts_probe rfl hstores
  obtain rfl := Option.some.inj htree
  cases hjson
  exact hthrough

end Sample

end Scenario

end Orchestration
