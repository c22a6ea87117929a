import Orchestration.Launch.Plot

namespace Orchestration.NetworkDelay

/-- Whether both measurements run at the same time or one after the other. -/
inductive Order where
  | simultaneous
  | sequential
  deriving DecidableEq

def scenarioName : String := "network_delay"

def scenarioDescription : String :=
  "Compares the RTT measured by fping (ICMP) and hping (TCP SYN/ACK), then plots the time " ++
    "series and the CDF of both measurements."

/-- The time between the end of the measurements and the drawing of figures. -/
def plotDelay : Duration := .ofSeconds 2

def bins : Nat := 100

/-- The scenario that measures, before anything is in it. -/
def blankMeasurement (scope : Scope) (registry : JobRegistry) : Order → Scenario
  | .simultaneous =>
    .create scope "network_delay_simultaneous"
      "Network delay measurement: two RTT measurements simultaneously" registry
  | .sequential =>
    .create scope "network_delay_sequential"
      "Network delay measurement: two RTT measurements one after the other" registry

def durationDescription : Order → String
  | .simultaneous => "The duration of fping/hping tests"
  | .sequential => "The duration of each fping/hping test"

/-- Measures both ways from a client. -/
def measure (order : Order) (client : String) : Build Unit := do
  let destination ← Build.argument "ip_dst" "Target of the pings and server IP address"
  let duration ← Build.argument "duration" (durationDescription order)
  let first ← Launch.fping client (.argument destination) (.argument duration) {}
  let wait : WaitClause := match order with
    | .simultaneous => {}
    | .sequential => ({} : WaitClause).afterAllFinished (first.map Handle.reference)
  let _ ← Launch.hping client (.argument destination) (.argument duration) wait

def buildMeasurement (scope : Scope) (registry : JobRegistry) (order : Order) (client : String) :
    Except Failure Scenario × List Event :=
  Build.run (blankMeasurement scope registry order) (measure order client)

/-- What is asked of the comparison. The duration is in seconds; figures are drawn on `plotEntity`,
if there is one. -/
structure Request where
  client : String
  destinationIp : String
  duration : Nat
  order : Order
  plotEntity : Option String

def measures (launch : JobLaunch) : Bool := launch.job = "fping" || launch.job = "hping"

def draw (entity : String) (measurement : Handle) : Build Unit := do
  let found ← Build.extractJobs measures
  let jobs := found.map ExtractedJob.reference
  let wait := (({} : WaitClause).afterFinished measurement.reference).withDelay plotDelay
  let _ ← Launch.Plot.timeSeries
    { statistic := "rtt", label := "RTT delay (ms)", title := "Comparison of measured RTTs" }
    entity jobs wait
  let _ ← Launch.Plot.cdf
    { statistic := "rtt", label := "RTT delay (ms)", title := "CDF of RTT delay measurements" }
    entity jobs bins wait

def blank (scope : Scope) (registry : JobRegistry) : Scenario :=
  .create scope scenarioName scenarioDescription registry

def steps (registry : JobRegistry) (request : Request) : Build Unit := do
  let scope ← Build.nextScope
  let measurement ← Build.aside (blankMeasurement scope registry request.order)
    (measure request.order request.client)
  let handle ← Build.startScenario measurement
    (Entries.ofList [("ip_dst", .text request.destinationIp),
      ("duration", .natural request.duration)]) {}
  match request.plotEntity with
  | some entity => draw entity handle
  | none => pure ()
  let s ← Build.scenario
  Build.note (.scenarioBuilt s.name s.functions.length)

/-- Builds the scenario: the outcome, and what happened. -/
def build (scope : Scope) (registry : JobRegistry) (request : Request) :
    Except Failure Scenario × List Event :=
  Build.run (blank scope registry) (steps registry request)

end Orchestration.NetworkDelay
