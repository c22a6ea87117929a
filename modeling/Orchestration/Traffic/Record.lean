import Orchestration.Text

namespace Orchestration

inductive TrafficKind where
  | voip
  | webBrowsing
  | dash
  | dataTransfer
  deriving DecidableEq

namespace TrafficKind

/-- The kind of a name; two kinds have a second, shorter name. -/
def ofName? (name : String) : Option TrafficKind :=
  if name = "voip" then some .voip
  else if name = "web" ∨ name = "web_browsing" then some .webBrowsing
  else if name = "dash" then some .dash
  else if name = "iperf3" ∨ name = "data_transfer" then some .dataTransfer
  else none

def name : TrafficKind → String
  | .voip => "voip"
  | .webBrowsing => "web_browsing"
  | .dash => "dash"
  | .dataTransfer => "data_transfer"

/-- The fields that lines of all kinds have: the id, the kind, the two entities, the duration, the
ids waited for, the delay and the two addresses. -/
def commonFields : Nat := 10

def fieldCount : TrafficKind → Nat
  | .dataTransfer => commonFields + 4
  | _ => commonFields + 2

end TrafficKind

/-- What a traffic needs beyond the common fields. -/
inductive TrafficParameters where
  | voip (port : Nat) (codec : String)
  | webBrowsing (runs parallelRuns : Nat)
  | dash (protocol : String) (tornadoPort : Nat)
  | dataTransfer (port : Nat) (size : String) (tos mtu : Nat)
  deriving DecidableEq

def TrafficParameters.kind : TrafficParameters → TrafficKind
  | .voip _ _ => .voip
  | .webBrowsing _ _ => .webBrowsing
  | .dash _ _ => .dash
  | .dataTransfer _ _ _ _ => .dataTransfer

/-- One traffic. Duration and delay are in seconds. -/
structure TrafficRecord where
  id : Nat
  source : String
  destination : String
  duration : Nat
  waitLaunched : List Nat
  waitFinished : List Nat
  delay : Nat
  sourceIp : String
  destinationIp : String
  parameters : TrafficParameters
  deriving DecidableEq

namespace TrafficRecord

def kind (r : TrafficRecord) : TrafficKind := r.parameters.kind

def hasDependencies (r : TrafficRecord) : Bool :=
  !r.waitLaunched.isEmpty || !r.waitFinished.isEmpty

end TrafficRecord

end Orchestration
