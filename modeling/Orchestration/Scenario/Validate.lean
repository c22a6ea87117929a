import Orchestration.Scenario.Build

namespace Orchestration

mutual

/-- Checks everything that the building calls check, once more. -/
def Scenario.validate : Scenario → Except Failure Unit
  | s@⟨_, _, _, parameters, functions, _, _⟩ => do
    parameters.checkUniqueNames
    validateFunctions s none functions
    match findCycle functions none with
    | some path => throw (.cycle s.name (path.head?.getD 0) path)
    | none => return ()

/-- Checks functions in order, the id before them given. -/
def validateFunctions (owner : Scenario) (previous : Option FunctionId) :
    List ScenarioFunction → Except Failure Unit
  | [] => return ()
  | ⟨id, payload, wait⟩ :: rest => do
    if previous.any (id ≤ ·) then throw (.duplicateId id)
    wait.references.forM (owner.checkRewired id)
    owner.checkPayload payload
    match payload with
    | .startScenario inner _ => inner.validate
    | _ => pure ()
    validateFunctions owner (some id) rest

end

end Orchestration
