import Orchestration.Scenario.Basic

namespace Orchestration.Scenario

def checkHandle (s : Scenario) (h : Handle) : Except Failure Unit :=
  if h.scope ≠ s.scope then throw (s.unresolved (.foreignFunction h.id h.scope))
  else if (s.function? h.id).isNone then throw (s.unresolved (.function h.id))
  else return ()

/-- The function that a reference points at, in the scenario or one level down. -/
def resolve (s : Scenario) (r : Reference) : Except Failure ScenarioFunction :=
  if r.scope ≠ s.scope then throw (s.unresolved (.foreignFunction r.id r.scope))
  else
    match r.host with
    | none =>
      match s.function? r.id with
      | some f => return f
      | none => throw (s.unresolved (.function r.id))
    | some host =>
      match s.function? host with
      | none => throw (s.unresolved (.host host))
      | some hostFunction =>
        match hostFunction.started? with
        | none => throw (s.kindMismatch host .startScenario)
        | some (inner, _) =>
          match inner.function? r.id with
          | some f => return f
          | none => throw (s.unresolved (.nestedFunction r.id inner.name host))

def embedded (s : Scenario) (host : Handle) : Except Failure Scenario := do
  s.checkHandle host
  match (s.function? host.id).bind ScenarioFunction.started? with
  | some (inner, _) => return inner
  | none => throw (s.kindMismatch host.id .startScenario)

/-- The reference of a function of the scenario that `host` starts. -/
def nestedRef (s : Scenario) (host : Handle) (id : FunctionId) : Except Failure Reference := do
  s.checkHandle host
  let reference := Reference.nested s.scope host.id id
  let _ ← s.resolve reference
  return reference

/-- The reference of a function of the scenario that `host` starts, by the handle that the started
scenario gave out. -/
def nestedHandleRef (s : Scenario) (host inner : Handle) : Except Failure Reference := do
  let embedded ← s.embedded host
  if inner.scope ≠ embedded.scope then
    throw (s.unresolved (.functionOfEmbedded inner.id embedded.name))
  s.nestedRef host inner.id

/-- Checks that one reference inside a value points into this scenario. -/
def checkReference (s : Scenario) : ValueReference → Except Failure Unit
  | .argument a =>
    if s.parameters.resolvesArgument a then return ()
    else throw (s.unresolved (.argument a.name))
  | .constant c =>
    if (s.parameters.constantValue? c).isSome then return ()
    else throw (s.unresolved (.constant c.name))
  | .function r => do
    let _ ← s.resolve r

def checkValue (s : Scenario) (value : ParameterValue) : Except Failure Unit :=
  value.references.forM s.checkReference

/-- Checks a function that is to be stopped: one of the scenario itself, of the right kind. -/
def checkStopTarget (s : Scenario) (expected : FunctionKind) (target : Reference) :
    Except Failure Unit := do
  let f ← s.resolve target
  if target.isNested ∨ f.kind ≠ expected then throw (s.kindMismatch target.outerId expected)

/-- Checks one value that is bound to an argument of an embedded scenario. -/
def checkBinding (s inner : Scenario) (binding : String × ParameterValue) :
    Except Failure Unit := do
  if (inner.parameters.argument? binding.1).isNone then
    throw (s.unresolved (.argumentOfEmbedded binding.1 inner.name))
  if binding.2.references.any ValueReference.isFunction then
    throw (s.unresolved (.functionBinding binding.1 inner.name))
  s.checkValue binding.2

/-- Checks the values bound to the arguments of an embedded scenario: they are complete, they are
declared, and they are in the terms of this scenario. -/
def checkBindings (s inner : Scenario) (bindings : Entries String ParameterValue) :
    Except Failure Unit := do
  if inner.scope = s.scope then throw (s.unresolved (.selfEmbedding inner.name))
  match inner.parameters.required.find? fun a => !Entries.has a.name bindings with
  | some a => throw (.missingArgument inner.name a.name)
  | none => bindings.forM (s.checkBinding inner)

def checkPayload (s : Scenario) : Payload → Except Failure Unit
  | .startJob job => do
    s.registry.check job
    job.values.forM s.checkValue
  | .stopJobs targets => targets.forM (s.checkStopTarget .startJob)
  | .startScenario inner bindings => s.checkBindings inner bindings
  | .stopScenario target => s.checkStopTarget .startScenario target

end Orchestration.Scenario
