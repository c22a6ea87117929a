import Orchestration.Proofs.Scenario.Coherence
import Orchestration.Scenario.Extract

namespace Orchestration.Scenario

variable {s : Scenario} {predicate : JobLaunch → Bool}

/-- A function matches once, if it launches a job that satisfies the predicate. -/
theorem mem_matchOf_iff {value : ParameterValue → Except Failure Json} {reference : Reference}
    {f : ScenarioFunction} {m : JobMatch} :
    m ∈ matchOf predicate value reference f ↔ ∃ launch, f.payload = .startJob launch ∧
      predicate launch = true ∧
      m = ⟨reference, launch, launch.endpoint.map fun e => e.resolve value⟩ := by
  obtain ⟨id, payload, wait⟩ := f
  cases payload with
  | startJob launch =>
      simp only [matchOf, ScenarioFunction.job?, Payload.job?, Payload.startJob.injEq,
        exists_eq_left']
      split
      next hlaunch => rw [List.mem_singleton, and_iff_right hlaunch]
      next hlaunch => simp [hlaunch]
  | stopJobs _ | startScenario _ _ | stopScenario _ =>
      simp [matchOf, ScenarioFunction.job?, Payload.job?]

theorem exists_mem_matchOf (value : ParameterValue → Except Failure Json) (reference : Reference)
    {f : ScenarioFunction} {launch : JobLaunch} (hlaunch : f.payload = .startJob launch)
    (hpredicate : predicate launch = true) :
    ∃ m ∈ matchOf predicate value reference f, m.reference = reference ∧ m.launch = launch :=
  ⟨_, mem_matchOf_iff.mpr ⟨launch, hlaunch, hpredicate, rfl⟩, rfl, rfl⟩

theorem mem_matchOf {value : ParameterValue → Except Failure Json} {reference : Reference}
    {f : ScenarioFunction} {m : JobMatch} (h : m ∈ matchOf predicate value reference f) :
    m.reference = reference ∧ f.payload = .startJob m.launch ∧ predicate m.launch = true := by
  obtain ⟨launch, hpayload, hlaunch, rfl⟩ := mem_matchOf_iff.mp h
  exact ⟨rfl, hpayload, hlaunch⟩

/-- Whatever is found is named in the terms of the scenario that was asked. -/
theorem Everywhere.resolves_of_mem_jobMatches (hs : s.Everywhere Coherent) {m : JobMatch}
    (hm : m ∈ s.jobMatches predicate) : s.Resolves m.reference := by
  obtain ⟨f, hf, hm⟩ := List.mem_flatMap.mp hm
  have hfind : s.function? f.id = some f := function?_of_mem hs.here.ids hf
  rcases List.mem_append.mp hm with hown | hnested
  · rw [(mem_matchOf hown).1]
    exact ⟨f, rfl, hfind⟩
  · split at hnested
    next inner bindings hstarted =>
      have hpayload := ScenarioFunction.started?_eq_some_iff.mp hstarted
      obtain ⟨g, hg, hm⟩ := List.mem_flatMap.mp hnested
      have hinner : inner.Everywhere Coherent := hs.inside ⟨f, hf, bindings, hpayload⟩
      rw [(mem_matchOf hm).1]
      exact ⟨g, rfl, f, inner, bindings, hfind, hpayload,
        function?_of_mem hinner.here.ids hg⟩
    next => simp at hnested

theorem Everywhere.resolves_of_mem_extractJobs (hs : s.Everywhere Coherent) {j : ExtractedJob}
    (hj : j ∈ s.extractJobs predicate) : s.Resolves j.reference := by
  obtain ⟨m, hm, rfl⟩ := List.mem_map.mp (List.mem_mergeSort.mp hj)
  exact hs.resolves_of_mem_jobMatches hm

end Orchestration.Scenario
