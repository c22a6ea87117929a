import Orchestration.Proofs.Traffic.Layout

namespace Orchestration.TrafficMix

open Scenario Build

variable {scope : Scope} {registry : JobRegistry} {records : List TrafficRecord}

/-- What is drawn of some curves: which statistic, of which jobs, and whether the curves are
called by their names. -/
structure Figure where
  statistic : String
  measures : JobLaunch → Bool
  curves : List Curve
  named : Bool

/-- The figures that there are, if they have curves. -/
def figures (scope : Scope) (records : List TrafficRecord) : List Figure := [
  ⟨"throughput", fun launch => launch.job = "iperf3" && launch.hasArgument "server",
    curves scope records .dataTransfer, true⟩,
  ⟨"bitrate", fun launch => launch.job = "dash player&server", curves scope records .dash, false⟩,
  ⟨"page_load_time", fun launch => launch.job = "web_browsing_qoe",
    curves scope records .webBrowsing, true⟩,
  ⟨"instant_mos", fun launch => launch.job = "voip_qoe_src", curves scope records .voip, true⟩]

/-- A figure is drawn twice, if it has curves: over time, and as a distribution. -/
def Figure.drawings (figure : Figure) : List (String × Figure) :=
  if figure.curves.isEmpty then [] else [("time_series", figure), ("histogram", figure)]

/-- The launch draws all curves of a figure in one picture, and calls them by their names if they
have names. -/
structure Figure.IsDrawnBy (figure : Figure) (launch : JobLaunch) : Prop where
  jobs : Entries.find? "jobs" launch.arguments =
    some (.list [.list (figure.curves.map fun curve => .function curve.reference)])
  statistic : Entries.find? "statistics" launch.arguments =
    some (.list [.list [.text figure.statistic]])
  legend : Entries.find? "legend" launch.arguments =
    if figure.named then some (.list [.list (figure.curves.map fun curve => .text curve.legend)])
    else none

/-- The function launches the job that makes the drawing. -/
structure Draws (entity : String) (wait : WaitClause) (drawing : String × Figure)
    (f : ScenarioFunction) : Prop where
  wait : f.wait = wait
  launch : ∃ launch, f.payload = .startJob launch ∧ launch.job = drawing.1 ∧
    launch.entity = entity ∧ drawing.2.IsDrawnBy launch

/-- The figure of a plot. -/
def figureOf (scope : Scope) (records : List TrafficRecord) (plot : TrafficPlot × TrafficKind) :
    Figure :=
  ⟨plot.1.statistic, plot.1.selects, curves scope records plot.2, plot.1.withLegends⟩

theorem figures_eq_map :
    figures scope records = (plots.zip plotKinds).map (figureOf scope records) :=
  rfl

section Drawings

variable {figure : Figure} {launch : JobLaunch}

theorem isDrawnBy_apply {plot : Launch.Plot} (hstatistic : plot.statistic = figure.statistic)
    (hlegends : plot.legends = if figure.named then figure.curves.map Curve.legend else [])
    (hcurves : figure.curves ≠ []) (hnone : Entries.find? "legend" launch.arguments = none) :
    figure.IsDrawnBy (plot.apply (figure.curves.map Curve.reference) launch) := by
  have hempty : plot.legends.isEmpty = !figure.named := by
    rw [hlegends]
    cases figure.named <;> simp [hcurves]
  unfold Launch.Plot.apply
  cases hnamed : figure.named with
  | false =>
      rw [hempty, hnamed]
      constructor <;> simp [JobLaunch.withArgument, Entries.find?_insert, Launch.Plot.figure,
        hstatistic, hnamed, hnone, Function.comp_def]
  | true =>
      rw [hempty, hnamed, hlegends]
      constructor <;> simp [JobLaunch.withArgument, Entries.find?_insert, Launch.Plot.figure,
        hstatistic, hnamed, Function.comp_def]

theorem Figure.IsDrawnBy.withArgument (h : figure.IsDrawnBy launch) {key : String}
    (hkey : key ∉ ["jobs", "statistics", "legend"]) (value : ParameterValue) :
    figure.IsDrawnBy (launch.withArgument key value) := by
  simp only [List.mem_cons, List.not_mem_nil, or_false, not_or] at hkey
  obtain ⟨hjobs, hstatistics, hlegend⟩ := hkey
  constructor
  · rw [← h.jobs, JobLaunch.withArgument, Entries.find?_insert, if_neg hjobs]
  · rw [← h.statistic, JobLaunch.withArgument, Entries.find?_insert, if_neg hstatistics]
  · rw [← h.legend, JobLaunch.withArgument, Entries.find?_insert, if_neg hlegend]

variable {entity : String} {wait : WaitClause}

/-- What is drawn for a plot are the drawings of its figure. -/
theorem forall₂_draws (plot : TrafficPlot × TrafficKind) (first : FunctionId) :
    List.Forall₂ (Draws entity wait) (figureOf scope records plot).drawings
      (numbered first (drawn entity wait plot.1 (curves scope records plot.2))) := by
  unfold Figure.drawings drawn
  cases hempty : (curves scope records plot.2).isEmpty with
  | true =>
      simp only [figureOf, hempty, if_true]
      exact .nil
  | false =>
      have hcurves : (figureOf scope records plot).curves ≠ [] := by
        simpa [figureOf] using hempty
      simp only [figureOf, hempty, Bool.false_eq_true, if_false]
      refine .cons ⟨rfl, _, rfl, Launch.Plot.apply_job, Launch.Plot.apply_entity, ?_⟩
        (.cons ⟨rfl, _, rfl, Launch.Plot.apply_job, Launch.Plot.apply_entity, ?_⟩ .nil)
      · exact isDrawnBy_apply rfl rfl hcurves rfl
      · -- A histogram has two arguments more, neither of which says what is drawn.
        refine Figure.IsDrawnBy.withArgument (Figure.IsDrawnBy.withArgument ?_ ?_ _) ?_ _
        · exact isDrawnBy_apply rfl rfl hcurves rfl
        · decide
        · decide

theorem forall₂_draws_all (planned : List (TrafficPlot × TrafficKind)) (first : FunctionId) :
    List.Forall₂ (Draws entity wait)
      ((planned.map (figureOf scope records)).flatMap Figure.drawings)
      (numbered first (drawnAll scope records entity wait planned)) := by
  induction planned generalizing first with
  | nil => exact .nil
  | cons plot planned ih =>
      rw [List.map_cons, List.flatMap_cons, drawnAll, List.flatMap_cons, numbered_append]
      exact List.rel_append (forall₂_draws plot first) (ih _)

end Drawings

variable {entity : String} {s : Scenario}

/-- The figures at the end of the scenario. Each is drawn of all jobs that it measures, in the order
of the traffics, and its curves are called after the same traffics. -/
theorem figures_of_build (h : (build scope registry records (some entity)).1 = .ok s) :
    (∀ figure ∈ figures scope records,
      (s.extractJobs figure.measures).map ExtractedJob.reference =
        figure.curves.map Curve.reference) ∧
      List.Forall₂ (Draws entity (afterTraffics scope records (.ofSeconds 2)))
        ((figures scope records).flatMap Figure.drawings)
        (s.functions.drop (2 * (serverLaunches records).length + records.length)) := by
  have hbuilt := built_of_build h
  have hsearchable := hbuilt.intact.coherent.searchable
  obtain rfl := hbuilt.scenario
  refine ⟨?_, ?_⟩
  · rw [figures_eq_map]
    refine List.forall_mem_map.mpr fun plot hplot => ?_
    rw [figureOf, ← curves_of_plot registry (drawsOnly_figureFunctions _) hsearchable plot hplot,
      List.map_map]
    rfl
  · have hlength : (numbered 0 (arranged scope registry records)).length =
        2 * (serverLaunches records).length + records.length := by
      rw [length_numbered, length_arranged]
    rw [functions_plotted, numbered_append, List.drop_left' hlength, figures_eq_map]
    exact forall₂_draws_all _ _

/-- After the five functions that run the traffics, the transfer, the video server and the web pages
are drawn, but there is no call to draw. -/
theorem mixed_figures :
    ∃ s, (build (.root 0) (.builtin true) mixedRecords (some "plotter")).1 = .ok s ∧
      (figures (.root 0) mixedRecords).map Figure.curves =
        [[⟨.nested (.root 0) 2 0, "iperf3 - receiver 10.0.0.4 5201"⟩],
          [⟨.own (.root 0) 0, "dash - server"⟩],
          [⟨.nested (.root 0) 3 0, "web - client"⟩], []] ∧
      List.Forall₂ (Draws "plotter" (afterTraffics (.root 0) mixedRecords (.ofSeconds 2)))
        ((figures (.root 0) mixedRecords).flatMap Figure.drawings) (s.functions.drop 5) := by
  have hrun : (build (.root 0) (.builtin true) mixedRecords
      (some "plotter")).1.toOption.isSome = true := by decide +kernel
  cases hbuild : (build (.root 0) (.builtin true) mixedRecords (some "plotter")).1 with
  | error failure => simp [hbuild, Except.toOption] at hrun
  | ok s =>
      obtain ⟨-, hdraws⟩ := figures_of_build hbuild
      have hservers : (serverLaunches mixedRecords).length = 1 := by decide +kernel
      rw [hservers] at hdraws
      exact ⟨s, rfl, by decide +kernel, hdraws⟩

end Orchestration.TrafficMix
