import Orchestration.Launch.Measurement

namespace Orchestration.Launch

/-- The time between the launch of a transfer server and that of its client. -/
def clientDelay : Duration := .ofSeconds 2

/-- What is sent over one flow, and how its packets are marked. -/
structure Flow where
  port : ParameterValue
  size : ParameterValue
  tos : ParameterValue
  mss : ParameterValue

/-- The launch of a server that ends after its first client. -/
def transferServer (entity : String) (bind port : ParameterValue) : JobLaunch :=
  ((({ job := "iperf3", entity := entity } : JobLaunch).withArgument "port" port
    |>.withArgument "num_flows" (.natural 1))
    |>.withArgument "server" (.ofPairs [("bind", bind), ("exit", .bool true)])).withEndpoint
      bind (some port)

def transferClient (entity : String) (serverIp : ParameterValue) (flow : Flow) : JobLaunch :=
  (({ job := "iperf3", entity := entity } : JobLaunch).withArgument "port" flow.port
    |>.withArgument "num_flows" (.natural 1)).withArgument "client"
      (.ofPairs [("server_ip", serverIp), ("transmitted_size", flow.size), ("tos", flow.tos),
        ("mss", flow.mss)])

def iperf3Server (entity : String) (bind port : ParameterValue) (wait : WaitClause) :
    Build (List Handle) :=
  one (transferServer entity bind port) wait

/-- Launches a server, and then a client that sends one flow to it; their handles in this order. -/
def iperf3Send (client server : String) (serverIp : ParameterValue) (flow : Flow)
    (wait : WaitClause) : Build (List Handle) := do
  let started ← iperf3Server server serverIp flow.port wait
  let clientWait := (({} : WaitClause).afterAllLaunched (started.map Handle.reference)).withDelay
    clientDelay
  let handle ← Build.startJob (transferClient client serverIp flow) clientWait
  return started ++ [handle]

/-- Settings of the transport of a machine. The start mode counts for one way of congestion control
only. -/
structure TransportSettings where
  congestionControl : String := "cubic"
  hystart : Nat := 0
  slowStartAfterIdle : Nat := 1
  noMetricsSave : Nat := 1
  sack : Nat := 0
  recovery : Nat := 1
  fastopen : Nat := 1

/-- Whether two texts are equal up to the case of the letters a to z. -/
def sameIgnoringCase (s t : String) : Bool :=
  s.toList.map Char.toLower == t.toList.map Char.toLower

/-- The part of the settings that says how congestion is controlled. -/
def congestionArgument (settings : TransportSettings) : String × ParameterValue :=
  if sameIgnoringCase settings.congestionControl "cubic" then
    ("CUBIC", .ofPairs [("hystart", .natural settings.hystart)])
  else
    ("other", .ofPairs [("congestion_control_name", .text settings.congestionControl)])

/-- The launch of the job that applies transport settings. -/
def transportConfiguration (entity : String) (settings : TransportSettings) : JobLaunch where
  job := "tcp_conf_linux"
  entity := entity
  arguments := Entries.ofList [
    congestionArgument settings,
    ("tcp_slow_start_after_idle", .natural settings.slowStartAfterIdle),
    ("tcp_no_metrics_save", .natural settings.noMetricsSave),
    ("tcp_sack", .natural settings.sack),
    ("tcp_recovery", .natural settings.recovery),
    ("tcp_fastopen", .natural settings.fastopen)]

def tcpConfiguration (entity : String) (settings : TransportSettings) (wait : WaitClause) :
    Build (List Handle) :=
  one (transportConfiguration entity settings) wait

end Orchestration.Launch
