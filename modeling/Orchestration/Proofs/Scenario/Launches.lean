import Orchestration.Proofs.Scenario.Substitution
import Orchestration.Proofs.Scenario.Tokens

namespace Orchestration

namespace Reference

/-- The first reference depends on an earlier function, or both name functions under one host, in
ascending order. -/
def Precedes (a b : Reference) : Prop :=
  a.outerId < b.outerId ∨ ∃ host, a.host = some host ∧ b.host = some host ∧ a.id < b.id

theorem Precedes.keyLE {a b : Reference} (h : a.Precedes b) :
    Reference.keyLE a.sortKey b.sortKey = true := by
  have hfirst : ∀ r : Reference, r.sortKey.1 = r.outerId := by
    rintro ⟨scope, _ | host, id⟩ <;> rfl
  rcases h with hlt | ⟨host, ha, hb, hlt⟩
  · simp [Reference.keyLE, hfirst, hlt, Nat.ne_of_lt hlt]
  · simp [Reference.keyLE, sortKey, ha, hb, Nat.le_of_lt hlt]

theorem Precedes.ne {a b : Reference} (h : a.Precedes b) : a ≠ b := by
  rintro rfl
  rcases h with hlt | ⟨-, -, -, hlt⟩ <;> exact Nat.lt_irrefl _ hlt

end Reference

/-- An end point can be written out if its values can be. -/
theorem Endpoint.exists_resolve {e : Endpoint} {value : ParameterValue → Except Failure Json}
    (h : ∀ v ∈ e.values, ∃ json, value v = .ok json) :
    ∃ written, e.resolve value = .ok written := by
  obtain ⟨address, port⟩ := e
  obtain ⟨json, hjson⟩ := h address List.mem_cons_self
  cases port with
  | none => exact ⟨⟨json, none⟩, by simp [Endpoint.resolve, hjson, bind, Except.bind]⟩
  | some port =>
      obtain ⟨number, hnumber⟩ := h port (by simp [Endpoint.values])
      exact ⟨⟨json, some number⟩, by
        simp [Endpoint.resolve, hjson, hnumber, bind, Except.bind]⟩

namespace Scenario

variable {s : Scenario} {predicate : JobLaunch → Bool}

section Levels

theorem matchesOf_startJob {f : ScenarioFunction} {launch : JobLaunch}
    (h : f.payload = .startJob launch) :
    s.matchesOf predicate f = matchOf predicate s.resolveValue (.own s.scope f.id) f := by
  obtain ⟨id, payload, wait⟩ := f
  cases h
  exact List.append_nil _

theorem matchesOf_startScenario {f : ScenarioFunction} {inner : Scenario}
    {bindings : Entries String ParameterValue} (h : f.payload = .startScenario inner bindings) :
    s.matchesOf predicate f = inner.functions.flatMap fun g =>
      matchOf predicate (s.resolveThrough inner bindings) (.nested s.scope f.id g.id) g := by
  obtain ⟨id, payload, wait⟩ := f
  cases h
  rfl

end Levels

section Order

theorem pairwise_matchOf {value : ParameterValue → Except Failure Json} {reference : Reference}
    {f : ScenarioFunction} {R : JobMatch → JobMatch → Prop} :
    (matchOf predicate value reference f).Pairwise R := by
  unfold matchOf
  split
  · split <;> simp
  · simp

theorem outerId_of_mem_matchesOf {f : ScenarioFunction} {m : JobMatch}
    (h : m ∈ s.matchesOf predicate f) : m.reference.outerId = f.id := by
  rcases List.mem_append.mp h with h | h
  · rw [(mem_matchOf h).1]
    rfl
  · split at h
    next =>
      obtain ⟨g, -, hg⟩ := List.mem_flatMap.mp h
      rw [(mem_matchOf hg).1]
      rfl
    next => cases h

/-- A function that launches a job starts no scenario, so only functions of one scenario stand side
by side. -/
theorem pairwise_matchesOf {f : ScenarioFunction}
    (hids : ∀ inner bindings, f.payload = .startScenario inner bindings →
      (inner.functions.map ScenarioFunction.id).Pairwise (· < ·)) :
    (s.matchesOf predicate f).Pairwise fun a b => a.reference.Precedes b.reference := by
  obtain ⟨id, payload, wait⟩ := f
  cases payload with
  | startJob launch =>
      rw [matchesOf_startJob rfl]
      exact pairwise_matchOf
  | startScenario inner bindings =>
      rw [matchesOf_startScenario rfl]
      refine List.pairwise_flatMap.mpr ⟨fun _ _ => pairwise_matchOf, ?_⟩
      refine (List.pairwise_map.mp (hids inner bindings rfl)).imp ?_
      intro g h hlt a ha b hb
      rw [(mem_matchOf ha).1, (mem_matchOf hb).1]
      exact .inr ⟨id, rfl, rfl, hlt⟩
  | stopJobs _ | stopScenario _ => exact .nil

theorem Searchable.pairwise_jobMatches (hs : s.Searchable) :
    (s.jobMatches predicate).Pairwise fun a b => a.reference.Precedes b.reference := by
  refine List.pairwise_flatMap.mpr ⟨?_, ?_⟩
  · intro f hf
    refine pairwise_matchesOf fun inner bindings hstarts => ?_
    exact hs.inside inner ⟨f, hf, bindings, hstarts⟩
  · refine (List.pairwise_map.mp hs.here).imp ?_
    intro f g hlt a ha b hb
    left
    rwa [outerId_of_mem_matchesOf ha, outerId_of_mem_matchesOf hb]

/-- The matches ascend as they are met, so sorting leaves them as they are. -/
theorem Searchable.extractJobs_eq (hs : s.Searchable) :
    s.extractJobs predicate = (s.jobMatches predicate).map JobMatch.extracted := by
  refine List.mergeSort_of_pairwise (List.pairwise_map.mpr ?_)
  exact hs.pairwise_jobMatches.imp fun h => h.keyLE

end Order

section Completeness

/-- A function of the scenario, or of a scenario that it starts, launches the job. -/
inductive LaunchedAt (s : Scenario) : Reference → JobLaunch → Prop
  | own {f : ScenarioFunction} {launch : JobLaunch} (hf : f ∈ s.functions)
      (hlaunch : f.payload = .startJob launch) : LaunchedAt s (.own s.scope f.id) launch
  | nested {host f : ScenarioFunction} {inner : Scenario} {bindings : Entries String ParameterValue}
      {launch : JobLaunch} (hhost : host ∈ s.functions)
      (hstarts : host.payload = .startScenario inner bindings) (hf : f ∈ inner.functions)
      (hlaunch : f.payload = .startJob launch) : LaunchedAt s (.nested s.scope host.id f.id) launch

theorem exists_jobMatch {r : Reference} {launch : JobLaunch} (h : s.LaunchedAt r launch)
    (hpredicate : predicate launch = true) :
    ∃ m ∈ s.jobMatches predicate, m.reference = r ∧ m.launch = launch := by
  cases h with
  | @own f _ hf hlaunch =>
      obtain ⟨m, hm, hreference, hm'⟩ :=
        exists_mem_matchOf s.resolveValue (.own s.scope f.id) hlaunch hpredicate
      rw [← matchesOf_startJob hlaunch] at hm
      exact ⟨m, List.mem_flatMap.mpr ⟨f, hf, hm⟩, hreference, hm'⟩
  | @nested host f inner bindings _ hhost hstarts hf hlaunch =>
      obtain ⟨m, hm, hreference, hm'⟩ := exists_mem_matchOf (s.resolveThrough inner bindings)
        (.nested s.scope host.id f.id) hlaunch hpredicate
      have hmatches : m ∈ s.matchesOf predicate host := by
        rw [matchesOf_startScenario hstarts]
        exact List.mem_flatMap.mpr ⟨f, hf, hm⟩
      exact ⟨m, List.mem_flatMap.mpr ⟨host, hhost, hmatches⟩, hreference, hm'⟩

theorem launchedAt_of_mem_jobMatches {m : JobMatch} (h : m ∈ s.jobMatches predicate) :
    s.LaunchedAt m.reference m.launch ∧ predicate m.launch = true := by
  obtain ⟨f, hf, h⟩ := List.mem_flatMap.mp h
  rcases List.mem_append.mp h with hown | hnested
  · obtain ⟨hreference, hlaunch, hpredicate⟩ := mem_matchOf hown
    exact ⟨hreference ▸ .own hf hlaunch, hpredicate⟩
  · split at hnested
    next hstarted =>
      have hstarts := ScenarioFunction.started?_eq_some_iff.mp hstarted
      obtain ⟨g, hg, hm⟩ := List.mem_flatMap.mp hnested
      obtain ⟨hreference, hlaunch, hpredicate⟩ := mem_matchOf hm
      exact ⟨hreference ▸ .nested hf hstarts hg hlaunch, hpredicate⟩
    next => cases hnested

end Completeness

section Endpoints

/-- The end point of a match is written out by way of the values of its launch, none of which can
be refused. -/
theorem Everywhere.written_of_mem_jobMatches (hs : s.Everywhere Coherent) {m : JobMatch}
    (hm : m ∈ s.jobMatches predicate) :
    ∃ value, m.endpoint = m.launch.endpoint.map (fun e => e.resolve value) ∧
      ∀ v ∈ m.launch.values, ∃ json, value v = .ok json := by
  obtain ⟨f, hf, hm⟩ := List.mem_flatMap.mp hm
  have hadmits := hs.here.payloads f hf
  rcases List.mem_append.mp hm with hown | hnested
  · obtain ⟨launch, hlaunch, -, rfl⟩ := mem_matchOf_iff.mp hown
    rw [hlaunch] at hadmits
    refine ⟨_, rfl, fun v hv => ?_⟩
    obtain ⟨json, hjson, -⟩ := exists_resolveValue v (hadmits.2 v hv).holdsConstants
    exact ⟨json, hjson⟩
  · split at hnested
    next inner bindings hstarted =>
      have hstarts := ScenarioFunction.started?_eq_some_iff.mp hstarted
      rw [hstarts] at hadmits
      obtain ⟨g, hg, hm⟩ := List.mem_flatMap.mp hnested
      obtain ⟨launch, hlaunch, -, rfl⟩ := mem_matchOf_iff.mp hm
      have hinner := (hs.inside ⟨f, hf, bindings, hstarts⟩).here
      have hstores : ∀ v ∈ launch.values, inner.Stores v := fun v hv =>
        ⟨g, hg, by rwa [hlaunch]⟩
      refine ⟨_, rfl, fun v hv => ?_⟩
      obtain ⟨-, json, -, hjson, -⟩ :=
        Binds.exists_resolveThrough hadmits (hinner.holdsAll_of_stores (hstores v hv))
      exact ⟨json, hjson⟩
    next => cases hnested

/-- No end point is left out of what is reported. -/
theorem Everywhere.endpoint_isSome (hs : s.Everywhere Coherent) {m : JobMatch}
    (hm : m ∈ s.jobMatches predicate) :
    m.extracted.endpoint.isSome = m.launch.endpoint.isSome := by
  obtain ⟨value, hendpoint, hvalue⟩ := hs.written_of_mem_jobMatches hm
  cases he : m.launch.endpoint with
  | none => simp [JobMatch.extracted, hendpoint, he]
  | some e =>
      have hvalues : ∀ v ∈ e.values, ∃ json, value v = .ok json := fun v hv =>
        hvalue v (List.mem_append_right _ (by simpa [he] using hv))
      obtain ⟨written, hwritten⟩ := Endpoint.exists_resolve hvalues
      simp [JobMatch.extracted, hendpoint, he, hwritten, Except.toOption]

end Endpoints

section Handles

theorem jobHandles_eq (s : Scenario) (name : String) :
    s.jobHandles name = s.functions.filterMap fun f =>
      (f.job?.filter fun launch => launch.job = name).map fun _ => ⟨s.scope, f.id, .startJob⟩ := by
  refine List.filterMap_congr fun f _ => ?_
  cases f.job? with
  | none => rfl
  | some launch => by_cases hjob : launch.job = name <;> simp [hjob]

/-- The handles of a job are those of its own launches that are found, in the same order. -/
theorem Searchable.reference_jobHandles (hs : s.Searchable) (name : String) :
    (s.jobHandles name).map Handle.reference =
      ((s.findJobs name).map ExtractedJob.reference).filter fun r => !r.isNested := by
  have hfunction : ∀ f : ScenarioFunction,
      ((f.job?.filter fun launch => launch.job = name).map fun _ =>
        Handle.mk s.scope f.id .startJob).toList.map Handle.reference =
      ((s.matchesOf (fun launch => launch.job = name) f).map
        (ExtractedJob.reference ∘ JobMatch.extracted)).filter fun r => !r.isNested := by
    rintro ⟨id, payload, wait⟩
    cases payload with
    | startJob launch =>
        simp only [matchesOf, matchOf, ScenarioFunction.job?, Payload.job?,
          ScenarioFunction.started?, Payload.started?, List.append_nil]
        by_cases hjob : launch.job = name <;> simp [hjob, JobMatch.extracted, Reference.own,
          Reference.isNested, Handle.reference]
    | startScenario inner bindings =>
        rw [matchesOf_startScenario rfl]
        refine (List.filter_eq_nil_iff.mpr fun r hr => ?_).symm
        obtain ⟨m, hm, rfl⟩ := List.mem_map.mp hr
        obtain ⟨g, -, hm⟩ := List.mem_flatMap.mp hm
        simp [JobMatch.extracted, (mem_matchOf hm).1, Reference.nested, Reference.isNested]
    | stopJobs _ | stopScenario _ => rfl
  rw [findJobs, hs.extractJobs_eq, jobMatches, List.map_map, List.map_flatMap,
    List.filter_flatMap, jobHandles_eq, List.filterMap_eq_flatMap_toList, List.map_flatMap]
  exact List.flatMap_congr fun f _ => hfunction f

theorem kind_of_mem_jobHandles {name : String} {h : Handle} (hh : h ∈ s.jobHandles name) :
    h.scope = s.scope ∧ h.kind = .startJob := by
  rw [jobHandles_eq] at hh
  obtain ⟨f, -, hf⟩ := List.mem_filterMap.mp hh
  obtain ⟨-, -, rfl⟩ := Option.map_eq_some_iff.mp hf
  exact ⟨rfl, rfl⟩

/-- Handles that were found can be stopped, now and later. -/
theorem Intact.stopJobs_jobHandles (hs : s.Intact) {t : Scenario} (hextends : s.Extends t)
    {name : String} {targets : List Handle} (htargets : ∀ h ∈ targets, h ∈ s.jobHandles name)
    {wait : WaitClause} (hwait : ∀ r ∈ wait.references, t.Resolves r) :
    ∃ handle u, t.stopJobs targets wait = .ok (handle, u) := by
  have hadmits : t.Admits (.stopJobs (targets.map Handle.reference)) := by
    refine List.forall_mem_map.mpr fun h hh => ?_
    have hnamed := namesOwn_of_mem_jobHandles hs (htargets h hh)
    rw [(kind_of_mem_jobHandles (htargets h hh)).2] at hnamed
    exact hextends.namesOwn hnamed
  exact ⟨_, _, addFunction_eq_ok_iff.mpr ⟨hwait, hadmits, rfl, rfl⟩⟩

end Handles

/-- The entry says of a launch what can be said of it, and tells where it is. -/
structure Reports (r : Reference) (launch : JobLaunch) (j : ExtractedJob) : Prop where
  reference : j.reference = r
  job : j.job = launch.job
  entity : j.entity = launch.entity
  endpoint : j.endpoint.isSome = launch.endpoint.isSome

/-- Whatever the scenario can add, it can add with a clause that waits besides for the function of
the reference. -/
def CanWaitFor (s : Scenario) (r : Reference) : Prop :=
  ∀ payload wait handle t, s.addFunction payload wait = .ok (handle, t) →
    s.addFunction payload (wait.afterFinished r) =
        .ok (handle, s.withFunction payload (wait.afterFinished r)) ∧
      s.addFunction payload (wait.afterLaunched r) =
        .ok (handle, s.withFunction payload (wait.afterLaunched r))

theorem Resolves.canWaitFor {r : Reference} (hr : s.Resolves r) : s.CanWaitFor r := by
  intro payload wait handle t hadd
  obtain ⟨hwait, hadmits, hhandle, -⟩ := addFunction_eq_ok_iff.mp hadd
  refine ⟨addFunction_eq_ok_iff.mpr ⟨?_, hadmits, hhandle, rfl⟩,
    addFunction_eq_ok_iff.mpr ⟨?_, hadmits, hhandle, rfl⟩⟩
  · intro other hother
    rcases WaitClause.mem_references_afterFinished.mp hother with hother | rfl
    · exact hwait other hother
    · exact hr
  · intro other hother
    rcases WaitClause.mem_references_afterLaunched.mp hother with hother | rfl
    · exact hwait other hother
    · exact hr

/-- The reference is what the scenario itself calls the function: the handle of one of its own, or
what it answers when it is asked for a function of a scenario that it starts. -/
inductive Calls (s : Scenario) (f : ScenarioFunction) : Reference → Prop
  | own (hf : f ∈ s.functions) : Calls s f (Handle.mk s.scope f.id f.kind).reference
  | nested {host : ScenarioFunction} {inner : Scenario} {bindings : Entries String ParameterValue}
      {r : Reference} (hhost : host ∈ s.functions)
      (hstarts : host.payload = .startScenario inner bindings) (hf : f ∈ inner.functions)
      (hanswer : s.nestedRef ⟨s.scope, host.id, host.kind⟩ f.id = .ok r) : Calls s f r

/-- What a launch is found under leads back to it. -/
theorem Everywhere.resolve_of_launchedAt (hs : s.Everywhere Coherent) {r : Reference}
    {launch : JobLaunch} (h : s.LaunchedAt r launch) :
    ∃ f, s.resolve r = .ok f ∧ f.payload = .startJob launch ∧ s.Calls f r := by
  cases h with
  | @own f _ hf hlaunch =>
      have hnames : s.Names (.own s.scope f.id) f := ⟨rfl, function?_of_mem hs.here.ids hf⟩
      exact ⟨f, resolve_eq_ok_iff.mpr hnames, hlaunch, .own hf⟩
  | @nested host f inner bindings _ hhost hstarts hf hlaunch =>
      have hfind := function?_of_mem hs.here.ids hhost
      have hinner := (hs.inside ⟨host, hhost, bindings, hstarts⟩).here
      have hnames : s.Names (.nested s.scope host.id f.id) f :=
        ⟨rfl, host, inner, bindings, hfind, hstarts, function?_of_mem hinner.ids hf⟩
      have hcheck : s.checkHandle ⟨s.scope, host.id, host.kind⟩ = .ok () :=
        checkHandle_eq_ok_iff.mpr ⟨rfl, host, hfind⟩
      have hanswer : s.nestedRef ⟨s.scope, host.id, host.kind⟩ f.id =
          .ok (.nested s.scope host.id f.id) :=
        Outcome.seq_eq_ok_iff.mpr ⟨hcheck, resolve_seq_eq_ok_iff.mpr ⟨⟨f, hnames⟩, rfl⟩⟩
      exact ⟨f, resolve_eq_ok_iff.mpr hnames, hlaunch, .nested hhost hstarts hf hanswer⟩

/-- What is found are the launches that satisfy the predicate, here and one level down, each of them
once and in ascending order. What is said of a launch names it, and it can be waited for in later
calls. The handles of a job are those of its own launches among them, and they can be stopped. -/
theorem Reachable.extracts_launches (h : s.Reachable) :
    (∀ predicate : JobLaunch → Bool,
      ((s.extractJobs predicate).map ExtractedJob.reference).Pairwise Reference.Precedes ∧
      (∀ r launch, s.LaunchedAt r launch → predicate launch = true →
        ∃! j, j ∈ s.extractJobs predicate ∧ Reports r launch j) ∧
      ∀ j ∈ s.extractJobs predicate, ∃ launch, s.LaunchedAt j.reference launch ∧
        predicate launch = true ∧ Reports j.reference launch j ∧
        (∃ f, s.resolve j.reference = .ok f ∧ f.payload = .startJob launch ∧
          s.Calls f j.reference) ∧
        ∀ steps : List Step, (∀ step ∈ steps, step.InPlace) →
          (s.run steps).CanWaitFor j.reference) ∧
    ∀ name,
      (s.jobHandles name).map Handle.reference =
          ((s.findJobs name).map ExtractedJob.reference).filter (fun r => !r.isNested) ∧
      (∀ handle ∈ s.jobHandles name, handle.scope = s.scope ∧ handle.kind = .startJob) ∧
      ∀ steps : List Step, (∀ step ∈ steps, step.InPlace) →
        ∀ targets : List Handle, (∀ target ∈ targets, target ∈ s.jobHandles name) →
          ∀ wait : WaitClause, (∀ r ∈ wait.references, (s.run steps).Resolves r) →
            ∃ handle t, (s.run steps).stopJobs targets wait = .ok (handle, t) := by
  have hintact := h.everywhere_intact
  have hs : s.Everywhere Coherent := hintact.coherent
  have hsearchable := hs.searchable
  refine ⟨fun predicate => ?_, fun name => ⟨hsearchable.reference_jobHandles name, ?_, ?_⟩⟩
  · have hordered : ((s.extractJobs predicate).map ExtractedJob.reference).Pairwise
        Reference.Precedes := by
      rw [hsearchable.extractJobs_eq, List.map_map]
      exact List.pairwise_map.mpr hsearchable.pairwise_jobMatches
    have hreports : ∀ m ∈ s.jobMatches predicate, Reports m.reference m.launch m.extracted :=
      fun m hm => ⟨rfl, rfl, rfl, hs.endpoint_isSome hm⟩
    refine ⟨hordered, ?_, ?_⟩
    · intro r launch hlaunched hpredicate
      obtain ⟨m, hm, rfl, rfl⟩ := exists_jobMatch hlaunched hpredicate
      refine ⟨m.extracted, ⟨?_, hreports m hm⟩, ?_⟩
      · rw [hsearchable.extractJobs_eq]
        exact List.mem_map_of_mem hm
      · rintro j ⟨hj, hreport⟩
        have hnodup := hordered.imp fun h => h.ne
        refine List.inj_on_of_nodup_map hnodup hj ?_ hreport.reference
        rw [hsearchable.extractJobs_eq]
        exact List.mem_map_of_mem hm
    · intro j hj
      have hresolves := hs.resolves_of_mem_extractJobs hj
      rw [hsearchable.extractJobs_eq] at hj
      obtain ⟨m, hm, rfl⟩ := List.mem_map.mp hj
      obtain ⟨hlaunched, hpredicate⟩ := launchedAt_of_mem_jobMatches hm
      refine ⟨m.launch, hlaunched, hpredicate, hreports m hm,
        hs.resolve_of_launchedAt hlaunched, ?_⟩
      intro steps hsteps
      exact ((hintact.here.extends_run hsteps).resolves hresolves).canWaitFor
  · exact fun handle => kind_of_mem_jobHandles
  · intro steps hsteps targets htargets wait hwait
    exact hintact.here.stopJobs_jobHandles (hintact.here.extends_run hsteps) htargets hwait

/-- The launch of the probe is found once, with its end point, under the function of the station
that starts the probe. The station's own launch is the one that can be stopped. -/
theorem station_extracts_launches :
    station.Reachable ∧ station.LaunchedAt (.nested (.root 3) 1 0) probing ∧
      (∃! j, j ∈ station.findJobs "hping" ∧ Reports (.nested (.root 3) 1 0) probing j) ∧
      station.jobHandles "fping" = [⟨.root 3, 0, .startJob⟩] ∧
      ∃ handle t, station.stopJobs [⟨.root 3, 0, .startJob⟩] {} = .ok (handle, t) := by
  have hlaunched : station.LaunchedAt (.nested (.root 3) 1 0) probing :=
    @LaunchedAt.nested station _ ⟨0, .startJob probing, {}⟩ _ _ _ station_starts_probe rfl
      (List.mem_singleton_self _) rfl
  obtain ⟨hfound, hhandles⟩ := station_reachable.extracts_launches
  have hown : station.jobHandles "fping" = [⟨.root 3, 0, .startJob⟩] := rfl
  refine ⟨station_reachable, hlaunched, ?_, hown, ?_⟩
  · exact (hfound fun launch => launch.job = "hping").2.1 _ _ hlaunched rfl
  · have htargets : ∀ target ∈ [(⟨.root 3, 0, .startJob⟩ : Handle)],
        target ∈ station.jobHandles "fping" := by simp [hown]
    exact (hhandles "fping").2.2 [] (by simp) _ htargets {} (by simp)

end Scenario

end Orchestration
