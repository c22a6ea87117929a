import Orchestration.Bisection
import Orchestration.JobRegistry

namespace Orchestration

mutual

/-- A scenario. Its functions stand in the order in which they were added. -/
structure Scenario where
  name : String
  description : String
  scope : Scope
  parameters : ParameterTable
  functions : List ScenarioFunction
  ids : IdSupply
  registry : JobRegistry

structure ScenarioFunction where
  id : FunctionId
  payload : Payload
  wait : WaitClause

/-- What a function does. The values bound to the arguments of a started scenario are in the terms
of the scenario that starts it. -/
inductive Payload where
  | startJob (job : JobLaunch)
  | stopJobs (targets : List Reference)
  | startScenario (scenario : Scenario) (bindings : Entries String ParameterValue)
  | stopScenario (target : Reference)

end

namespace Payload

def kind : Payload → FunctionKind
  | .startJob _ => .startJob
  | .stopJobs _ => .stopJobs
  | .startScenario _ _ => .startScenario
  | .stopScenario _ => .stopScenario

def job? : Payload → Option JobLaunch
  | .startJob job => some job
  | _ => none

def started? : Payload → Option (Scenario × Entries String ParameterValue)
  | .startScenario scenario bindings => some (scenario, bindings)
  | _ => none

end Payload

namespace ScenarioFunction

def kind (f : ScenarioFunction) : FunctionKind := f.payload.kind

def job? (f : ScenarioFunction) : Option JobLaunch := f.payload.job?

def started? (f : ScenarioFunction) : Option (Scenario × Entries String ParameterValue) :=
  f.payload.started?

end ScenarioFunction

namespace Scenario

def create (scope : Scope) (name description : String)
    (registry : JobRegistry := .permissive) : Scenario where
  name := name
  description := description
  scope := scope
  parameters := { scope := scope, owner := name }
  functions := []
  ids := {}
  registry := registry

/-- The function of an id. Ids are meant to ascend, as the building calls hand them out. -/
def function? (s : Scenario) (id : FunctionId) : Option ScenarioFunction :=
  Bisection.find? ScenarioFunction.id id s.functions

/-- The failure to find something in a scenario. -/
def unresolved (s : Scenario) (missing : Missing) : Failure :=
  .unresolved s.name s.scope missing

/-- The failure of a function to be of a kind. -/
def kindMismatch (s : Scenario) (id : FunctionId) (expected : FunctionKind) : Failure :=
  .kindMismatch s.name id expected

end Scenario

end Orchestration
