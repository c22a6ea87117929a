import Orchestration.Description.Basic
import Orchestration.Json.Printer

namespace Orchestration

/-- A function is written as its id, or as the pair of its host and its id. -/
def Target.toJson : Target → Json
  | .own id => .ofNat id
  | .nested host id => .array [.ofNat host, .ofNat id]

def Argument.toJson (a : Argument) : Json :=
  .object ([("name", .string a.name), ("description", .string a.description)] ++
    a.default.toList.map fun value => ("default", value))

def Constant.toJson (c : Constant) : Json :=
  .object [("name", .string c.name), ("value", c.value)]

def Json.ofSeconds (seconds : Double) : Json := .number (.real seconds)

mutual

def Description.toJson : Description → Json
  | ⟨name, description, arguments, constants, functions⟩ =>
    .object [
      ("name", .string name),
      ("description", .string description),
      ("arguments", .array (arguments.map Argument.toJson)),
      ("constants", .array (constants.map Constant.toJson)),
      ("functions", .array (recordsToJson functions))]

def recordsToJson : List FunctionRecord → List Json
  | [] => []
  | f :: rest => f.toJson :: recordsToJson rest

def FunctionRecord.toJson : FunctionRecord → Json
  | ⟨id, kind, payload, waitFinished, waitLaunched, waitDelay⟩ =>
    .object [
      ("id", .ofNat id),
      ("kind", .string kind.name),
      ("payload", payload.toJson),
      ("wait_finished", .array (waitFinished.map Target.toJson)),
      ("wait_launched", .array (waitLaunched.map Target.toJson)),
      ("wait_delay", .ofSeconds waitDelay)]

def PayloadRecord.toJson : PayloadRecord → Json
  | .startJob entity job offset arguments =>
    .object [
      ("entity_name", .string entity),
      ("job_name", .string job),
      ("offset", .ofSeconds offset),
      ("arguments", .ofEntries arguments)]
  | .stopJobs targets => .object [("openbach_function_ids", .array (targets.map Target.toJson))]
  | .startScenario name scenario arguments =>
    .object [
      ("scenario_name", .string name),
      ("scenario", scenario.toJson),
      ("arguments", .ofEntries arguments)]
  | .stopScenario target => .object [("openbach_function_id", target.toJson)]

end

end Orchestration
