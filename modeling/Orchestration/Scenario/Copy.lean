import Orchestration.Scenario.Basic

namespace Orchestration

mutual

/-- The copy of a scenario for a scope that is not in use. -/
def Scenario.copy (scope : Scope) : Scenario → Scenario
  | ⟨name, description, source, parameters, functions, ids, registry⟩ =>
    ⟨name, description, scope, parameters.rescope scope, copyFunctions source scope functions,
      ids, registry⟩

def copyFunctions (source target : Scope) : List ScenarioFunction → List ScenarioFunction
  | [] => []
  | ⟨id, payload, wait⟩ :: rest =>
    ⟨id, copyPayload source target id payload, wait.rescope source target⟩ ::
      copyFunctions source target rest

/-- What the function of an id does in a copy. -/
def copyPayload (source target : Scope) (id : FunctionId) : Payload → Payload
  | .startJob job => .startJob (job.rescope source target)
  | .stopJobs targets => .stopJobs (targets.map (Reference.rescope source target))
  | .startScenario inner bindings =>
    .startScenario (inner.copy (target.child id))
      (ParameterValue.rescopeEntries source target bindings)
  | .stopScenario reference => .stopScenario (reference.rescope source target)

end

end Orchestration
