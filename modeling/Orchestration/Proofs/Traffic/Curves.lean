import Orchestration.Proofs.Scenario.Launches
import Orchestration.Proofs.Traffic.Mix

namespace Orchestration

theorem Json.shown_string (text : String) : (Json.string text).shown = text := rfl

theorem Json.shown_ofNat (n : Nat) : (Json.ofNat n).shown = toString n := by
  simp [Json.ofNat, Json.shown, Json.compact, Json.text, Json.write, Json.Number.text,
    Json.integerText]
  rfl

section Legends

variable (reference : Reference) (job entity heading address : String) (port : Nat)

theorem legend_bare :
    ExtractedJob.legend ⟨reference, job, entity, none⟩ heading = heading ++ " - " ++ entity := by
  simp [ExtractedJob.legend]

theorem legend_addressed :
    ExtractedJob.legend ⟨reference, job, entity, some ⟨.string address, some (.ofNat port)⟩⟩
        heading = heading ++ " - " ++ entity ++ " " ++ address ++ " " ++ toString port := by
  rw [← Json.shown_ofNat]
  simp only [ExtractedJob.legend, Json.shown_string, String.append_assoc]

end Legends

namespace Scenario

variable {predicate : JobLaunch → Bool} {value : ParameterValue → Except Failure Json}
  {reference : Reference}

theorem extracted_matchOf_startJob (id : FunctionId) (launch : JobLaunch) (wait : WaitClause) :
    (matchOf predicate value reference ⟨id, .startJob launch, wait⟩).map JobMatch.extracted =
      if predicate launch then
        [⟨reference, launch.job, launch.entity,
          (launch.endpoint.map fun e => e.resolve value).bind Except.toOption⟩]
      else [] := by
  change (if predicate launch then _ else _ : List JobMatch).map JobMatch.extracted = _
  split <;> rfl

theorem matchOf_stopJobs (id : FunctionId) (targets : List Reference) (wait : WaitClause) :
    matchOf predicate value reference ⟨id, .stopJobs targets, wait⟩ = [] :=
  rfl

end Scenario

namespace TrafficMix

open Scenario Build

section Curves

/-- A job whose results are drawn, with what its curve is called. -/
structure Curve where
  reference : Reference
  legend : String
  deriving DecidableEq

def Curve.ofJob (heading : String) (j : ExtractedJob) : Curve := ⟨j.reference, j.legend heading⟩

/-- The curve of a traffic whose scenario is started by a function: of the server of a transfer, of
the client that loads pages, or of the sender of a call. -/
def curve? (scope : Scope) (id : FunctionId) (r : TrafficRecord) : Option Curve :=
  match r.parameters with
  | .dataTransfer port _ _ _ =>
    some ⟨.nested scope id 0,
      "iperf3 - " ++ r.destination ++ " " ++ r.destinationIp ++ " " ++ toString port⟩
  | .webBrowsing _ _ => some ⟨.nested scope id 0, "web - " ++ r.destination⟩
  | .voip port _ =>
    some ⟨.nested scope id 1,
      "voip - " ++ r.source ++ " " ++ r.destinationIp ++ " " ++ toString port⟩
  | .dash _ _ => none

variable (scope : Scope) (records : List TrafficRecord)

/-- The curves of the traffics of a kind, in the order of the list. -/
def trafficCurves (kind : TrafficKind) : List Curve :=
  (records.zipIdx (serverLaunches records).length).filterMap fun r =>
    if r.1.kind = kind then curve? scope r.2 r.1 else none

/-- The curves of the video servers, which come first in the scenario. -/
def serverCurves : List Curve :=
  (videoEntities records).zipIdx.map fun server => ⟨.own scope server.2, "dash - " ++ server.1⟩

/-- Videos are measured where they are served, and everything else where the traffic is. -/
def curves : TrafficKind → List Curve
  | .dash => serverCurves scope records
  | kind => trafficCurves scope records kind

end Curves

theorem trafficCurves_dash (scope : Scope) (records : List TrafficRecord) :
    trafficCurves scope records .dash = [] := by
  refine List.filterMap_eq_nil_iff.mpr fun ⟨r, id⟩ _ => ?_
  dsimp only
  unfold TrafficRecord.kind curve?
  cases r.parameters <;> rfl

theorem servers_append_traffics (scope : Scope) (records : List TrafficRecord)
    (kind : TrafficKind) :
    (if kind = .dash then serverCurves scope records else []) ++ trafficCurves scope records kind =
      curves scope records kind := by
  cases kind with
  | dash => rw [trafficCurves_dash, if_pos rfl, List.append_nil, curves]
  | _ => rfl

section Launches

variable (entity : String) (bind port : ParameterValue) (flow : Launch.Flow) (call : Launch.Call)

@[simp] theorem job_transferServer : (Launch.transferServer entity bind port).job = "iperf3" := rfl

@[simp] theorem entity_transferServer :
    (Launch.transferServer entity bind port).entity = entity := rfl

@[simp] theorem endpoint_transferServer :
    (Launch.transferServer entity bind port).endpoint = some ⟨bind, some port⟩ := rfl

@[simp] theorem job_transferClient : (Launch.transferClient entity bind flow).job = "iperf3" := rfl

@[simp] theorem job_callReceiver : (Launch.callReceiver entity call).job = "voip_qoe_dest" := rfl

@[simp] theorem job_callSender : (Launch.callSender entity call).job = "voip_qoe_src" := rfl

@[simp] theorem entity_callSender : (Launch.callSender entity call).entity = entity := rfl

@[simp] theorem endpoint_callSender :
    (Launch.callSender entity call).endpoint = some ⟨call.destinationIp, some call.port⟩ := rfl

@[simp] theorem hasArgument_transferServer :
    (Launch.transferServer entity bind port).hasArgument "server" = true := by
  simp [Launch.transferServer, JobLaunch.hasArgument, Entries.has_iff,
    JobLaunch.mem_keys_withArgument]

@[simp] theorem hasArgument_transferClient :
    (Launch.transferClient entity bind flow).hasArgument "server" = false := by
  rw [Bool.eq_false_iff]
  simp [Launch.transferClient, JobLaunch.hasArgument, Entries.has_iff,
    JobLaunch.mem_keys_withArgument]

end Launches

/-- The kinds of traffic that the plots are about. -/
def plotKinds : List TrafficKind := [.dataTransfer, .dash, .webBrowsing, .voip]

variable {scope : Scope} {registry : JobRegistry} {records : List TrafficRecord}

section Traffics

/-- The port of the traffics that are addressed. -/
def port? (r : TrafficRecord) : Option Nat :=
  match r.parameters with
  | .dataTransfer port _ _ _ | .voip port _ => some port
  | _ => none

variable {t : Scenario} {r : TrafficRecord}

/-- The end point of an addressed traffic is that of its record. -/
theorem resolve_addressed {inner : Scenario} {innerScope : Scope} {port : Nat}
    (hport : port? r = some port) :
    Endpoint.resolve ⟨.argument ⟨innerScope, "dest_ip"⟩, some (.argument ⟨innerScope, "port"⟩)⟩
        (t.resolveThrough inner (Service.bindings r)) =
      .ok ⟨.string r.destinationIp, some (.ofNat port)⟩ := by
  have hbindings : Service.bindings r = Entries.ofList [("dest_ip", .text r.destinationIp),
      ("port", .natural port), ("duration", .natural r.duration)] := by
    unfold port? at hport
    unfold Service.bindings
    split at hport <;> simp_all
  have haddress : Entries.find? "dest_ip" (Service.bindings r) = some (.text r.destinationIp) := by
    rw [hbindings]
    exact Entries.find?_ofList_of_nodup (by simp) (by simp)
  have hnumber : Entries.find? "port" (Service.bindings r) = some (.natural port) := by
    rw [hbindings]
    exact Entries.find?_ofList_of_nodup (by simp) (by simp)
  simp only [Endpoint.resolve, resolveThrough, ParameterValue.resolveWith, boundArgument,
    haddress, hnumber]
  rfl

/-- The curves that a plot gets from a function. -/
def found (t : Scenario) (plot : TrafficPlot) (f : ScenarioFunction) : List Curve :=
  ((t.matchesOf plot.selects f).map JobMatch.extracted).map (Curve.ofJob plot.heading)

/-- A traffic is found by the plot of its kind only, and there once at most. -/
theorem found_traffic (hscope : t.scope = scope) (id : FunctionId) (wait : WaitClause) :
    ∀ plot ∈ plots.zip plotKinds,
      found t plot.1 ⟨id, .startScenario (embedded scope registry records r) (Service.bindings r),
        wait⟩ = if r.kind = plot.2 then (curve? scope id r).toList else [] := by
  intro plot hplot
  subst hscope
  rw [found, matchesOf_startScenario rfl, embedded, Service.filled_functions, Service.functions,
    curve?, List.map_flatMap, List.map_flatMap, TrafficRecord.kind]
  simp only [plots, plotKinds, List.zip_cons_cons, List.zip_nil_left, List.mem_cons,
    List.not_mem_nil, or_false] at hplot
  -- Sixteen cases: each plot is asked about each kind of traffic.
  cases hr : r.parameters with
  | dataTransfer port size tos mtu =>
    have haddressed : port? r = some port := by rw [port?, hr]
    simp only [numbered_cons, List.flatMap_cons, extracted_matchOf_startJob]
    rcases hplot with rfl | rfl | rfl | rfl <;>
      simp [numbered, TrafficParameters.kind, Curve.ofJob, resolve_addressed haddressed,
        legend_addressed, Except.toOption]
  | voip port codec =>
    have haddressed : port? r = some port := by rw [port?, hr]
    simp only [numbered_cons, List.flatMap_cons, extracted_matchOf_startJob, matchOf_stopJobs]
    rcases hplot with rfl | rfl | rfl | rfl <;>
      simp [numbered, TrafficParameters.kind, Curve.ofJob, resolve_addressed haddressed,
        legend_addressed, Except.toOption]
  | webBrowsing runs parallelRuns =>
    simp only [numbered_cons, List.flatMap_cons, extracted_matchOf_startJob]
    rcases hplot with rfl | rfl | rfl | rfl <;>
      simp [numbered, TrafficParameters.kind, Curve.ofJob, Launch.webClient, legend_bare]
  | dash protocol tornadoPort =>
    simp only [numbered_cons, List.flatMap_cons, extracted_matchOf_startJob]
    rcases hplot with rfl | rfl | rfl | rfl <;>
      simp [numbered, TrafficParameters.kind, Launch.videoClient, JobLaunch.withEndpoint]

/-- A launch without an end point is known by its entity. -/
theorem found_bare (hscope : t.scope = scope) {plot : TrafficPlot} {launch : JobLaunch}
    (hbare : launch.endpoint = none) (id : FunctionId) (wait : WaitClause) :
    found t plot ⟨id, .startJob launch, wait⟩ =
      if plot.selects launch then [⟨.own scope id, plot.heading ++ " - " ++ launch.entity⟩]
      else [] := by
  rw [found, matchesOf_startJob rfl, extracted_matchOf_startJob, hbare, hscope]
  split
  next => simp [Curve.ofJob, legend_bare]
  next => rfl

end Traffics

section Plots

variable {figures : List (Payload × WaitClause)}

/-- What draws figures: jobs that no plot is about. -/
def DrawsOnly (figures : List (Payload × WaitClause)) : Prop :=
  ∀ f ∈ figures, ∃ launch, f.1 = .startJob launch ∧
    (launch.job = "time_series" ∨ launch.job = "histogram")

/-- The scenario with some figures in it. -/
def plotted (scope : Scope) (registry : JobRegistry) (records : List TrafficRecord)
    (figures : List (Payload × WaitClause)) : Scenario :=
  (blank scope registry).withFunctions (arranged scope registry records ++ figures)

theorem scope_plotted : (plotted scope registry records figures).scope = scope := by
  rw [plotted, scope_withFunctions]
  rfl

theorem functions_plotted :
    (plotted scope registry records figures).functions =
      numbered 0 (arranged scope registry records ++ figures) := by
  rw [plotted, functions_withFunctions]
  rfl

variable {t : Scenario}

/-- A video server is found by the plot of videos, and a web server by none. -/
theorem found_servers (hscope : t.scope = scope) :
    ∀ plot ∈ plots.zip plotKinds,
      (numbered 0 (serverFunctions records)).flatMap (found t plot.1) =
        if plot.2 = .dash then serverCurves scope records else [] := by
  intro plot hplot
  have hvideo : ∀ entity, plot.1.selects { job := "dash player&server", entity := entity } =
      decide (plot.2 = .dash) := by
    intro entity
    revert plot
    simp [plots, plotKinds]
  have hweb : ∀ entity, plot.1.selects { job := "apache2", entity := entity } = false := by
    intro entity
    revert plot
    simp [plots, plotKinds]
  have hheading : plot.2 = .dash → plot.1.heading = "dash" := by
    revert plot
    simp [plots, plotKinds]
  rw [serverFunctions, serverLaunches, List.map_append, List.map_map, List.map_map,
    numbered_append, List.flatMap_append, flatMap_numbered, flatMap_numbered]
  simp only [Function.comp_apply, found_bare hscope, hvideo, hweb]
  by_cases hdash : plot.2 = .dash
  · simp [hdash, hheading, serverCurves, List.map_eq_flatMap]
  · simp [hdash]

theorem found_figures (hfigures : DrawsOnly figures) (first : FunctionId) :
    ∀ plot ∈ plots.zip plotKinds, (numbered first figures).flatMap (found t plot.1) = [] := by
  intro plot hplot
  refine List.flatMap_eq_nil_iff.mpr fun f hf => ?_
  obtain ⟨id, payload, wait⟩ := f
  obtain ⟨launch, rfl, hjob⟩ := hfigures _ (mem_of_mem_numbered hf)
  have hselects : plot.1.selects launch = false := by
    rcases hjob with hjob | hjob <;> revert plot <;> simp [plots, plotKinds, hjob]
  rw [found, matchesOf_startJob rfl, extracted_matchOf_startJob, hselects]
  rfl

theorem found_stops (plot : TrafficPlot) (first : FunctionId) :
    (numbered first (stopFunctions scope records)).flatMap (found t plot) = [] := by
  rw [stopFunctions, flatMap_numbered]
  exact List.flatMap_eq_nil_iff.mpr fun _ _ => rfl

theorem found_traffics (hscope : t.scope = scope) :
    ∀ plot ∈ plots.zip plotKinds,
      (numbered (serverLaunches records).length
        (trafficFunctions scope registry records records)).flatMap (found t plot.1) =
        trafficCurves scope records plot.2 := by
  intro plot hplot
  rw [trafficFunctions, flatMap_numbered, trafficCurves, List.filterMap_eq_flatMap_toList]
  refine List.flatMap_congr fun r _ => ?_
  rw [found_traffic hscope _ _ plot hplot]
  split <;> rfl

variable (registry) in
/-- The curves of a plot, wherever it is drawn: figures that are there already make no
difference. -/
theorem curves_of_plot (hfigures : DrawsOnly figures)
    (hsearchable : (plotted scope registry records figures).Searchable) :
    ∀ plot ∈ plots.zip plotKinds,
      ((plotted scope registry records figures).extractJobs plot.1.selects).map
        (Curve.ofJob plot.1.heading) = curves scope records plot.2 := by
  intro plot hplot
  have hscope : (plotted scope registry records figures).scope = scope := scope_plotted
  rw [hsearchable.extractJobs_eq, jobMatches, List.map_flatMap, List.map_flatMap]
  change (plotted scope registry records figures).functions.flatMap (found _ plot.1) = _
  rw [functions_plotted, arranged, numbered_append, numbered_append, numbered_append,
    List.flatMap_append, List.flatMap_append, List.flatMap_append,
    found_servers hscope plot hplot, found_stops, found_figures hfigures _ plot hplot,
    List.append_nil, List.append_nil, length_serverFunctions, Nat.zero_add,
    found_traffics hscope plot hplot, servers_append_traffics]

end Plots

end TrafficMix

end Orchestration
