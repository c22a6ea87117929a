import Orchestration.Proofs.Scenario.Extraction
import Orchestration.Proofs.Traffic.Curves

namespace Orchestration.TrafficMix

open Scenario Build

variable {scope : Scope} {registry : JobRegistry} {records : List TrafficRecord}

section Drawn

/-- What is drawn of some curves, if there are any. -/
def drawn (entity : String) (wait : WaitClause) (plot : TrafficPlot) (curves : List Curve) :
    List (Payload × WaitClause) :=
  if curves.isEmpty then []
  else
    let jobs := curves.map Curve.reference
    let legends := if plot.withLegends then curves.map Curve.legend else []
    let figure : String → Launch.Plot := fun title => ⟨plot.statistic, plot.label, title, legends⟩
    [(.startJob ((figure "Rate time series").timeSeriesLaunch entity jobs), wait),
      (.startJob ((figure "Rate CDF").histogramLaunch entity jobs bins true), wait)]

variable {entity : String} {wait : WaitClause}

theorem drawsOnly_drawn (plot : TrafficPlot) (curves : List Curve) :
    DrawsOnly (drawn entity wait plot curves) := by
  unfold drawn
  split
  next => exact List.forall_mem_nil _
  next =>
    refine List.forall_mem_cons.mpr ⟨⟨_, rfl, .inl Launch.Plot.apply_job⟩, ?_⟩
    exact List.forall_mem_singleton.mpr ⟨_, rfl, .inr Launch.Plot.apply_job⟩

/-- The functions that draw some plots. -/
def drawnAll (scope : Scope) (records : List TrafficRecord) (entity : String) (wait : WaitClause)
    (planned : List (TrafficPlot × TrafficKind)) : List (Payload × WaitClause) :=
  planned.flatMap fun plot => drawn entity wait plot.1 (curves scope records plot.2)

theorem drawsOnly_drawnAll (planned : List (TrafficPlot × TrafficKind)) :
    DrawsOnly (drawnAll scope records entity wait planned) := by
  intro f hf
  obtain ⟨plot, -, hf⟩ := List.mem_flatMap.mp hf
  exact drawsOnly_drawn _ _ f hf

/-- The functions at the end of the scenario, which draw figures if there is an entity to draw
on. -/
def figureFunctions (scope : Scope) (records : List TrafficRecord) :
    Option String → List (Payload × WaitClause)
  | some entity =>
    drawnAll scope records entity (afterTraffics scope records plotDelay) (plots.zip plotKinds)
  | none => []

theorem drawsOnly_figureFunctions (plotEntity : Option String) :
    DrawsOnly (figureFunctions scope records plotEntity) := by
  cases plotEntity with
  | some entity => exact drawsOnly_drawnAll _
  | none => exact List.forall_mem_nil _

end Drawn

/-- All that the scenario consists of, once it is built. -/
structure Built (scope : Scope) (registry : JobRegistry) (records : List TrafficRecord)
    (plotEntity : Option String) (t : Scenario) : Prop where
  unoffended : firstOffence? records = none
  wellDeclared : WellDeclared records
  inside : ∀ r ∈ records,
    (run (Service.blank (scope.child (trafficId records r.id)) registry r) (Service.steps r)).1 =
      .ok (embedded scope registry records r)
  scenario : t = plotted scope registry records (figureFunctions scope records plotEntity)
  intact : t.Everywhere Intact

section Walk

variable {refused : Failure → Prop}
  (hrefused : ∀ launch, Launch.Bundled launch → ∀ failure,
    registry.check launch = .error failure → refused failure)

include hrefused

theorem ends_draw {entity : String} {wait : WaitClause} {plot : TrafficPlot} {t : Scenario}
    (ht : t.Everywhere Intact) (hregistry : t.registry = registry)
    (hwait : ∀ reference ∈ wait.references, t.Resolves reference) :
    (draw entity wait plot).Ends t refused fun _ u =>
      u = t.withFunctions (drawn entity wait plot
        ((t.extractJobs plot.selects).map (Curve.ofJob plot.heading))) ∧ u.Everywhere Intact := by
  have hjobs : ∀ reference ∈ (t.extractJobs plot.selects).map ExtractedJob.reference,
      t.Resolves reference :=
    List.forall_mem_map.mpr fun j hj => ht.coherent.resolves_of_mem_extractJobs hj
  unfold draw
  refine (ends_extractJobs (Q := fun found u => found = t.extractJobs plot.selects ∧ u = t)
    ⟨rfl, rfl⟩).bind ?_
  rintro found t ⟨rfl, rfl⟩
  simp only [drawn, List.isEmpty_map, List.map_map]
  split
  · exact ends_pure ⟨rfl, ht⟩
  refine (Service.ends_one hrefused (.timeSeries _ _ _) ht hregistry hwait
    (Launch.holdsLaunch_timeSeries hjobs)).bind ?_
  rintro _ _ ⟨rfl, rfl, hu⟩
  have hextends := ht.here.extends_withFunction
  refine (Service.ends_one hrefused (.histogram _ _ _ _ _) hu hregistry
    (fun reference h => (hextends _ _).resolves (hwait reference h))
    (Launch.holdsLaunch_histogram fun reference h =>
      (hextends _ _).resolves (hjobs reference h))).bind ?_
  rintro _ _ ⟨rfl, rfl, hv⟩
  exact ends_pure ⟨rfl, hv⟩

/-- Plots are drawn one after the other, and none of them is drawn of another's figures. -/
theorem ends_plots {entity : String} {listed : List TrafficPlot}
    (planned : List (TrafficPlot × TrafficKind)) (hlisted : listed = planned.map Prod.fst)
    (hplanned : ∀ plot ∈ planned, plot ∈ plots.zip plotKinds)
    {figures : List (Payload × WaitClause)} (hfigures : DrawsOnly figures)
    (h : (plotted scope registry records figures).Everywhere Intact) :
    (listed.forM (draw entity (afterTraffics scope records plotDelay))).Ends
      (plotted scope registry records figures) refused fun _ u =>
        u = plotted scope registry records
          (figures ++ drawnAll scope records entity (afterTraffics scope records plotDelay)
            planned) ∧ u.Everywhere Intact := by
  subst hlisted
  induction planned generalizing figures with
  | nil =>
      refine ends_pure ⟨?_, h⟩
      rw [drawnAll, List.flatMap_nil, List.append_nil]
  | cons plot planned ih =>
      obtain ⟨hplot, hplanned⟩ := List.forall_mem_cons.mp hplanned
      have hthere : (serverLaunches records).length + records.length ≤
          (arranged scope registry records ++ figures).length := by
        rw [List.length_append, length_arranged]
        omega
      have hwait := resolves_afterTraffics h.here.toCoherent hthere plotDelay
      refine (ends_draw hrefused h (registry_withFunctions _ _) hwait).bind ?_
      rintro _ _ ⟨rfl, hu⟩
      have hmore : DrawsOnly (figures ++ drawn entity (afterTraffics scope records plotDelay) plot.1
          (curves scope records plot.2)) :=
        List.forall_mem_append.mpr ⟨hfigures, drawsOnly_drawn _ _⟩
      rw [curves_of_plot registry hfigures h.coherent.searchable plot hplot, plotted,
        ← withFunctions_append, List.append_assoc] at hu ⊢
      refine (ih hplanned hmore hu).imp ?_
      rintro _ _ ⟨rfl, hv⟩
      refine ⟨?_, hv⟩
      rw [drawnAll, drawnAll, List.flatMap_cons, List.append_assoc]

/-- The steps end with the whole scenario, or with the first offence, or where the registry refuses
a job. -/
theorem ends_steps {plotEntity : Option String}
    (hoffence : ∀ failure, firstOffence? records = some failure → refused failure) :
    (steps registry records plotEntity).Ends (blank scope registry) refused fun _ t =>
      Built scope registry records plotEntity t := by
  have hservers : ((blank scope registry).launchHandles (serverLaunches records)).map Prod.snd =
      (List.range (serverLaunches records).length).map fun i => ⟨scope, i, .startJob⟩ := by
    rw [List.range_eq_range']
    exact handles_launchHandles
  unfold steps
  refine (ends_rounds (s := blank scope registry) fun launch hlaunch =>
    hrefused launch (bundled_of_mem_serverLaunches hlaunch)).bind ?_
  rintro _ _ ⟨rfl, rfl, hkept⟩
  have hstart : Composed scope registry records [] {}
      ((blank scope registry).withLaunches (serverLaunches records)) :=
    ⟨carrying_nil.symm, hkept (Reachable.created _ _ _ _).everywhere_intact, rfl, .nil, nofun⟩
  refine (ends_traffics hrefused hservers hstart hoffence).bind ?_
  rintro c t ⟨hnone, h⟩
  refine (ends_scenario (Q := fun _ u => u = t) rfl).bind ?_
  rintro s t rfl
  refine (ends_note (Q := fun _ u => u = t) rfl).bind ?_
  rintro - t rfl
  refine (ends_stopServers hservers h).bind ?_
  rintro - _ ⟨rfl, hu⟩
  have hplotted : (blank scope registry).withFunctions (arranged scope registry records) =
      plotted scope registry records [] := by
    rw [plotted, List.append_nil]
  rw [hplotted] at hu ⊢
  cases plotEntity with
  | none => exact ends_pure ⟨hnone, h.wellDeclared, h.built, rfl, hu⟩
  | some entity =>
      dsimp only
      unfold drawAll
      rw [h.afterAllFinished_eq]
      -- The plots stand for themselves, so that nothing below runs them.
      generalize hlisted : plots = listed
      refine (ends_plots hrefused (plots.zip plotKinds) hlisted.symm (fun _ => id)
        (List.forall_mem_nil _) hu).imp ?_
      rintro _ _ ⟨rfl, hv⟩
      exact ⟨hnone, h.wellDeclared, h.built, rfl, hv⟩

end Walk

/-- Building ends with the whole scenario, or with the first offence, or where the registry refuses
a job. -/
theorem build_cases (scope : Scope) (registry : JobRegistry) (records : List TrafficRecord)
    (plotEntity : Option String) :
    (∃ t, (build scope registry records plotEntity).1 = .ok t ∧
      Built scope registry records plotEntity t) ∨
    ∃ failure, (build scope registry records plotEntity).1 = .error failure ∧
      (firstOffence? records = some failure ∨
        ∃ launch, Launch.Bundled launch ∧ registry.check launch = .error failure) :=
  (ends_steps (fun launch hlaunch _ hcheck => .inr ⟨launch, hlaunch, hcheck⟩)
    fun _ => .inl).run

theorem built_of_build {plotEntity : Option String} {s : Scenario}
    (h : (build scope registry records plotEntity).1 = .ok s) :
    Built scope registry records plotEntity s := by
  rcases build_cases scope registry records plotEntity with ⟨t, ht, hbuilt⟩ | ⟨failure, hfailure, -⟩
  · obtain rfl := Except.ok.inj (h.symm.trans ht)
    exact hbuilt
  · cases h.symm.trans hfailure

end Orchestration.TrafficMix
