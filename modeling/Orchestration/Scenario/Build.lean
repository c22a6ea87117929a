import Orchestration.Scenario.Resolve
import Orchestration.Scenario.WaitGraph

/-!
The calls that build a scenario. Each one checks everything before it stores anything.
-/

namespace Orchestration.Scenario

def addArgument (s : Scenario) (name description : String) (default : Option Json := none) :
    Except Failure (ArgumentRef × Scenario) := do
  let (ref, parameters) ← s.parameters.addArgument name description default
  return (ref, { s with parameters := parameters })

def addConstant (s : Scenario) (name : String) (value : Json) :
    Except Failure (ConstantRef × Scenario) := do
  let (ref, parameters) ← s.parameters.addConstant name value
  return (ref, { s with parameters := parameters })

/-- Checks that every reference of a clause points at something. -/
def checkWait (s : Scenario) (wait : WaitClause) : Except Failure Unit :=
  wait.references.forM fun target => do
    let _ ← s.resolve target

/-- Adds a function at the end. Whatever it waits for is there already, so it closes no cycle. -/
def addFunction (s : Scenario) (payload : Payload) (wait : WaitClause) :
    Except Failure (Handle × Scenario) := do
  s.checkWait wait
  s.checkPayload payload
  let (id, ids) := s.ids.issue
  return (⟨s.scope, id, payload.kind⟩,
    { s with functions := s.functions ++ [⟨id, payload, wait⟩], ids := ids })

def startJob (s : Scenario) (job : JobLaunch) (wait : WaitClause) :
    Except Failure (Handle × Scenario) :=
  s.addFunction (.startJob job) wait

def stopJobs (s : Scenario) (targets : List Handle) (wait : WaitClause) :
    Except Failure (Handle × Scenario) :=
  s.addFunction (.stopJobs (targets.map Handle.reference)) wait

def startScenario (s inner : Scenario) (bindings : Entries String ParameterValue)
    (wait : WaitClause) : Except Failure (Handle × Scenario) :=
  s.addFunction (.startScenario inner bindings) wait

def stopScenario (s : Scenario) (target : Handle) (wait : WaitClause) :
    Except Failure (Handle × Scenario) :=
  s.addFunction (.stopScenario target.reference) wait

/-- Checks that one reference points at something else than the waiting function. -/
def checkRewired (s : Scenario) (id : FunctionId) (target : Reference) : Except Failure Unit := do
  let _ ← s.resolve target
  if target.outerId = id then throw (.cycle s.name id [id])

/-- Replaces the clause of a function. The new clause may name functions that were added later, so
cycles are looked for. -/
def setWait (s : Scenario) (h : Handle) (wait : WaitClause) : Except Failure Scenario := do
  s.checkHandle h
  wait.references.forM (s.checkRewired h.id)
  match findCycle s.functions (some (h.id, wait)) with
  | some path => throw (.cycle s.name h.id path)
  | none =>
    return { s with
      functions := s.functions.map fun f => if f.id = h.id then { f with wait := wait } else f }

end Orchestration.Scenario
