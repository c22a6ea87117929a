import Orchestration.Launch.Measurement

namespace Orchestration.Launch

/-- The time between the launch of a call's receiver and that of its sender. -/
def voipSourceDelay : Duration := .ofSeconds 5

def apache2 (entity : String) (wait : WaitClause) : Build (List Handle) :=
  one { job := "apache2", entity := entity } wait

/-- Launches a video server, which is a web server too. -/
def dashServer (entity : String) (wait : WaitClause) : Build (List Handle) :=
  one { job := "dash player&server", entity := entity } wait

structure Call where
  sourceIp : ParameterValue
  destinationIp : ParameterValue
  port : ParameterValue
  codec : ParameterValue
  duration : ParameterValue

def callReceiver (entity : String) (call : Call) : JobLaunch :=
  ({ job := "voip_qoe_dest", entity := entity } : JobLaunch).withArgument "starting_port"
    call.port

def callSender (entity : String) (call : Call) : JobLaunch :=
  ({ job := "voip_qoe_src", entity := entity,
     arguments := Entries.ofList [
      ("src_addr", call.sourceIp),
      ("dest_addr", call.destinationIp),
      ("codec", call.codec),
      ("duration", call.duration),
      ("starting_port", call.port)] } : JobLaunch).withEndpoint call.destinationIp
        (some call.port)

/-- Launches a call's receiver, and then its sender; their handles in this order. -/
def voip (source destination : String) (call : Call) (wait : WaitClause) :
    Build (List Handle) := do
  let receiver ← Build.startJob (callReceiver destination call) wait
  let senderWait := (({} : WaitClause).afterLaunched receiver.reference).withDelay voipSourceDelay
  let sender ← Build.startJob (callSender source call) senderWait
  return [receiver, sender]

/-- The launch of a job that loads web pages and measures how long that takes. -/
def webClient (entity : String) (runs parallelRuns duration : ParameterValue) : JobLaunch where
  job := "web_browsing_qoe"
  entity := entity
  arguments := Entries.ofList [
    ("nb_runs", runs), ("nb_parallel_runs", parallelRuns), ("duration", duration)]

def webBrowsing (entity : String) (runs parallelRuns duration : ParameterValue)
    (wait : WaitClause) : Build (List Handle) :=
  one (webClient entity runs parallelRuns duration) wait

/-- The launch of a job that watches a video. -/
def videoClient (entity : String) (serverIp protocol tornadoPort duration : ParameterValue) :
    JobLaunch :=
  ({ job := "dash client", entity := entity,
     arguments := Entries.ofList [
      ("dst_ip", serverIp), ("protocol", protocol), ("tornado_port", tornadoPort),
      ("duration", duration)] } : JobLaunch).withEndpoint serverIp

def dashClient (entity : String) (serverIp protocol tornadoPort duration : ParameterValue)
    (wait : WaitClause) : Build (List Handle) :=
  one (videoClient entity serverIp protocol tornadoPort duration) wait

end Orchestration.Launch
