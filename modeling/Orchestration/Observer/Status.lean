import Orchestration.Json.Decoder
import Orchestration.Json.Printer

namespace Orchestration

open Json

inductive InstanceState where
  | scheduling
  | running
  | finished
  | stopped
  | error
  deriving DecidableEq

namespace InstanceState

/-- Whether the state is one in which an instance stays. -/
def isTerminal : InstanceState → Bool
  | .finished | .stopped | .error => true
  | .scheduling | .running => false

def name : InstanceState → String
  | .scheduling => "scheduling"
  | .running => "running"
  | .finished => "finished"
  | .stopped => "stopped"
  | .error => "error"

def ofName? (name : String) : Option InstanceState :=
  [InstanceState.scheduling, .running, .finished, .stopped, .error].find?
    fun state => state.name = name

def decoder : Decoder InstanceState := .oneOf ofName?

end InstanceState

structure FunctionStatus where
  id : Nat
  state : InstanceState
  deriving DecidableEq

structure InstanceStatus where
  instanceId : Nat
  state : InstanceState
  functions : List FunctionStatus
  deriving DecidableEq

namespace FunctionStatus

def toJson (f : FunctionStatus) : Json :=
  .object [("id", .ofNat f.id), ("state", .string f.state.name)]

def decoder : Decoder FunctionStatus := fun levels raw => do
  let record ← Decoder.fields ["id", "state"] levels raw
  let id ← record.required 0 (.natural Text.max32)
  let state ← record.required 1 InstanceState.decoder
  return ⟨id, state⟩

end FunctionStatus

namespace InstanceStatus

def toJson (s : InstanceStatus) : Json :=
  .object [
    ("instance_id", .ofNat s.instanceId),
    ("state", .string s.state.name),
    ("functions", .array (s.functions.map FunctionStatus.toJson))]

def decoder : Decoder InstanceStatus := fun levels raw => do
  let record ← Decoder.fields ["instance_id", "state", "functions"] levels raw
  let id ← record.required 0 (.natural Text.max64)
  let state ← record.required 1 InstanceState.decoder
  let functions ← record.defaulted 2 (.list FunctionStatus.decoder) []
  return ⟨id, state, functions⟩

end InstanceStatus

end Orchestration
