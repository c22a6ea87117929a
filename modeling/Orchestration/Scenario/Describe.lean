import Orchestration.Description.Writer
import Orchestration.Scenario.Validate

namespace Orchestration

/-- The name of a referenced function in a description. -/
def Reference.target (r : Reference) : Target :=
  match r.host with
  | some host => .nested host r.id
  | none => .own r.id

mutual

/-- A value written out in the terms of a scenario; `argument` says what becomes of arguments. -/
def ParameterValue.resolveWith (s : Scenario) (argument : ArgumentRef → Except Failure Json) :
    ParameterValue → Except Failure Json
  | .literal value => return value
  | .argument ref => argument ref
  | .constant ref =>
    match s.parameters.constantValue? ref with
    | some value => return value
    | none => throw (s.unresolved (.constant ref.name))
  | .function ref => return ref.target.toJson
  | .list items => do
    let items ← resolveItems s argument items
    return .array items
  | .map entries => do
    let entries ← resolveEntries s argument entries
    return .ofEntries entries

def resolveItems (s : Scenario) (argument : ArgumentRef → Except Failure Json) :
    List ParameterValue → Except Failure (List Json)
  | [] => return []
  | item :: items => do
    let item ← item.resolveWith s argument
    let items ← resolveItems s argument items
    return item :: items

def resolveEntries (s : Scenario) (argument : ArgumentRef → Except Failure Json) :
    List (String × ParameterValue) → Except Failure (Entries String Json)
  | [] => return []
  | (key, value) :: entries => do
    let value ← value.resolveWith s argument
    let entries ← resolveEntries s argument entries
    return (key, value) :: entries

end

/-- An argument as the placeholder that is filled in later. -/
def ArgumentRef.unbound (ref : ArgumentRef) : Json := .string ref.placeholder

namespace Scenario

/-- A value written out, arguments as placeholders. -/
def resolveValue (s : Scenario) (value : ParameterValue) : Except Failure Json :=
  value.resolveWith s fun ref => return ref.unbound

/-- The entries of a dictionary written out, arguments as placeholders. -/
def resolveValues (s : Scenario) (entries : Entries String ParameterValue) :
    Except Failure (Entries String Json) :=
  resolveEntries s (fun ref => return ref.unbound) entries

end Scenario

mutual

/-- The description of a scenario, unchecked. -/
def Scenario.outline : Scenario → Except Failure Description
  | s@⟨name, description, _, parameters, functions, _, _⟩ => do
    let functions ← outlineFunctions s functions
    return ⟨name, description, parameters.arguments, parameters.constants, functions⟩

def outlineFunctions (owner : Scenario) :
    List ScenarioFunction → Except Failure (List FunctionRecord)
  | [] => return []
  | ⟨id, payload, wait⟩ :: rest => do
    let record ← outlinePayload owner payload
    let rest ← outlineFunctions owner rest
    return ⟨id, payload.kind, record, wait.finished.map Reference.target,
      wait.launched.map Reference.target, wait.delay.toSeconds⟩ :: rest

/-- The description of what a function does. Values bound to arguments are in the terms of the
scenario that binds them. -/
def outlinePayload (owner : Scenario) : Payload → Except Failure PayloadRecord
  | .startJob job => do
    let arguments ← owner.resolveValues job.arguments
    return .startJob job.entity job.job job.offset.toSeconds arguments
  | .stopJobs targets => return .stopJobs (targets.map Reference.target)
  | .startScenario inner bindings => do
    let scenario ← inner.outline
    let arguments ← owner.resolveValues bindings
    return .startScenario inner.name scenario arguments
  | .stopScenario target => return .stopScenario target.target

end

namespace Scenario

def describe (s : Scenario) : Except Failure Description := do
  s.validate
  s.outline

def toText (s : Scenario) (style : Json.Style) : Except Failure String := do
  let description ← s.describe
  return description.toJson.text style

end Scenario

end Orchestration
