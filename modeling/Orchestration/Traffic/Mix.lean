import Orchestration.Launch.Plot
import Orchestration.Traffic.Service

/-!
The scenario that runs many traffics, each in a scenario of its own. Servers come first, one on each
entity that needs one. Traffics that wait for no other wait for the servers. The servers are stopped
when every traffic is done, and figures may be drawn at the end.
-/

namespace Orchestration.TrafficMix

def scenarioName : String := "service_traffic_mix"

def scenarioDescription : String :=
  "Launches the traffics described by a dependency file, then post-processes the generated data."

/-- The time that servers are given to come up. -/
def serverWarmup : Duration := .ofSeconds 5

/-- The time between the last traffic's end and the stop of the servers. -/
def stopDelay : Duration := .ofSeconds 5

/-- The time between the last traffic's end and the drawing of figures. -/
def plotDelay : Duration := .ofSeconds 2

def bins : Nat := 100

/-- Starts a server on the source of each of some traffics, unless one was started there. -/
def startMissing (start : String → Build (List Handle)) (servers : List (String × Handle))
    (records : List TrafficRecord) : Build (List (String × Handle)) :=
  records.foldlM
    (fun servers r =>
      if servers.any (fun server => server.1 = r.source) then return servers
      else do
        let handles ← start r.source
        return servers ++ handles.map fun handle => (r.source, handle))
    servers

def ofKind (kind : TrafficKind) (records : List TrafficRecord) : List TrafficRecord :=
  records.filter fun r => r.kind = kind

/-- Starts the servers, with the entity of each. Video servers come first: they also serve pages. -/
def startServers (records : List TrafficRecord) : Build (List (String × Handle)) := do
  let servers ← startMissing (fun entity => Launch.dashServer entity {}) []
    (ofKind .dash records)
  startMissing (fun entity => Launch.apache2 entity {}) servers (ofKind .webBrowsing records)

/-- What a traffic waits for beyond other traffics: its delay, and the servers if it waits for no
other traffic. -/
def startWait (servers : List Handle) (r : TrafficRecord) : Except Failure WaitClause :=
  let delay := Duration.ofSeconds r.delay
  if r.hasDependencies || servers.isEmpty then return ({} : WaitClause).withDelay delay
  else
    match delay.add? serverWarmup with
    | some delay =>
      return (({} : WaitClause).afterAllLaunched (servers.map Handle.reference)).withDelay delay
    | none => throw .durationOverflow

def startTraffic (registry : JobRegistry) (servers : List Handle) (c : Composer)
    (r : TrafficRecord) : Build Composer := do
  let wait ← Build.ofExcept (startWait servers r)
  let scope ← Build.nextScope
  let inner ← Build.aside (Service.blank scope registry r) (Service.steps r)
  Build.declare c r.id r.waitLaunched r.waitFinished wait
    (.startScenario inner (Service.bindings r))

def stopServer (traffics : List Handle) (server : String × Handle) : Build Unit := do
  let s ← Build.scenario
  Build.note (.serverStopping s.name server.1)
  let wait := (({} : WaitClause).afterAllFinished (traffics.map Handle.reference)).withDelay
    stopDelay
  let _ ← Build.stopJobs [server.2] wait

/-- What is drawn for a kind of traffic, from which jobs. -/
structure TrafficPlot where
  heading : String
  statistic : String
  label : String
  selects : JobLaunch → Bool
  withLegends : Bool

/-- The figures of data transfers, videos, web pages and calls. -/
def plots : List TrafficPlot := [
  ⟨"iperf3", "throughput", "Rate (b/s)", fun launch =>
    launch.job = "iperf3" && launch.hasArgument "server", true⟩,
  ⟨"dash", "bitrate", "Rate (b/s)", fun launch => launch.job = "dash player&server", false⟩,
  ⟨"web", "page_load_time", "PLT (ms)", fun launch => launch.job = "web_browsing_qoe", true⟩,
  ⟨"voip", "instant_mos", "MOS", fun launch => launch.job = "voip_qoe_src", true⟩]

/-- Draws one plot's two figures on an entity, if there is anything to draw. -/
def draw (entity : String) (wait : WaitClause) (plot : TrafficPlot) : Build Unit := do
  let found ← Build.extractJobs plot.selects
  if found.isEmpty then return ()
  let jobs := found.map ExtractedJob.reference
  let legends := if plot.withLegends then found.map fun j => j.legend plot.heading else []
  let _ ← Launch.Plot.timeSeries ⟨plot.statistic, plot.label, "Rate time series", legends⟩
    entity jobs wait
  let _ ← Launch.Plot.cdf ⟨plot.statistic, plot.label, "Rate CDF", legends⟩ entity jobs bins wait

def drawAll (entity : String) (traffics : List Handle) : Build Unit :=
  let wait := (({} : WaitClause).afterAllFinished (traffics.map Handle.reference)).withDelay
    plotDelay
  plots.forM (draw entity wait)

def blank (scope : Scope) (registry : JobRegistry) : Scenario :=
  .create scope scenarioName scenarioDescription registry

/-- Fills the scenario for some traffics. Figures are drawn on `plotEntity`, if there is one. -/
def steps (registry : JobRegistry) (records : List TrafficRecord) (plotEntity : Option String) :
    Build Unit := do
  let servers ← startServers records
  let composer ← records.foldlM (startTraffic registry (servers.map Prod.snd)) {}
  let traffics := composer.handles
  let s ← Build.scenario
  Build.note (.trafficsComposed s.name traffics.length)
  servers.forM (stopServer traffics)
  match plotEntity with
  | some entity => drawAll entity traffics
  | none => return ()

/-- Builds the scenario for some traffics: the outcome, and what happened. -/
def build (scope : Scope) (registry : JobRegistry) (records : List TrafficRecord)
    (plotEntity : Option String) : Except Failure Scenario × List Event :=
  Build.run (blank scope registry) (steps registry records plotEntity)

end Orchestration.TrafficMix
