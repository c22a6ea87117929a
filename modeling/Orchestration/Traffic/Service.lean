import Orchestration.Launch.Service
import Orchestration.Launch.Transfer
import Orchestration.Traffic.Record

namespace Orchestration.Service

/-- The time between the end of a call and the stop of its receiver. -/
def stopDelay : Duration := .ofSeconds 5

def name : TrafficKind → String
  | .dataTransfer => "service_data_transfer"
  | .voip => "service_voip"
  | .webBrowsing => "service_web_browsing"
  | .dash => "service_video_dash"

def description : TrafficKind → String
  | .dataTransfer => "Transfers a file over TCP with iperf3."
  | .voip => "Runs one VoIP call and measures its quality."
  | .webBrowsing => "Browses web pages and measures their load time."
  | .dash => "Streams a DASH video from the player server."

def dataTransfer (r : TrafficRecord) (size : String) (tos mtu : Nat) : Build Unit := do
  let destinationIp ← Build.argument "dest_ip" "Address the iperf3 server binds to"
  let port ← Build.argument "port" "Port of the iperf3 server"
  let _ ← Build.argument "duration" "Upper bound of the transfer duration"
  let flow : Launch.Flow := ⟨.argument port, .text size, .natural tos, .natural mtu⟩
  let _ ← Launch.iperf3Send r.source r.destination (.argument destinationIp) flow {}

/-- Makes a call, and stops its receiver after it. -/
def voip (r : TrafficRecord) (codec : String) : Build Unit := do
  let destinationIp ← Build.argument "dest_ip" "Address of the call receiver"
  let port ← Build.argument "port" "First port used by the call"
  let duration ← Build.argument "duration" "Duration of the call"
  let call : Launch.Call :=
    ⟨.text r.sourceIp, .argument destinationIp, .argument port, .text codec, .argument duration⟩
  let handles ← Launch.voip r.source r.destination call {}
  match handles with
  | [receiver, sender] => do
    let wait := (({} : WaitClause).afterFinished sender.reference).withDelay stopDelay
    let _ ← Build.stopJobs [receiver] wait
  | _ => return ()

def webBrowsing (r : TrafficRecord) (runs parallelRuns : Nat) : Build Unit := do
  let duration ← Build.argument "duration" "Duration of the browsing session"
  let _ ← Launch.webBrowsing r.destination (.natural runs) (.natural parallelRuns)
    (.argument duration) {}

def videoDash (r : TrafficRecord) (protocol : String) (tornadoPort : Nat) : Build Unit := do
  let duration ← Build.argument "duration" "Duration of the video session"
  let _ ← Launch.dashClient r.destination (.text r.sourceIp) (.text protocol)
    (.natural tornadoPort) (.argument duration) {}

def blank (scope : Scope) (registry : JobRegistry) (r : TrafficRecord) : Scenario :=
  .create scope (name r.kind) (description r.kind) registry

def steps (r : TrafficRecord) : Build Unit :=
  match r.parameters with
  | .dataTransfer _ size tos mtu => dataTransfer r size tos mtu
  | .voip _ codec => voip r codec
  | .webBrowsing runs parallelRuns => webBrowsing r runs parallelRuns
  | .dash protocol tornadoPort => videoDash r protocol tornadoPort

/-- What a traffic binds to the arguments of its scenario. -/
def bindings (r : TrafficRecord) : Entries String ParameterValue :=
  let duration := ("duration", ParameterValue.natural r.duration)
  match r.parameters with
  | .dataTransfer port _ _ _ | .voip port _ =>
    Entries.ofList
      [("dest_ip", .text r.destinationIp), ("port", .natural port), duration]
  | .webBrowsing _ _ | .dash _ _ => Entries.ofList [duration]

end Orchestration.Service
