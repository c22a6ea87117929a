import Orchestration.Failure
import Orchestration.Json.Basic

namespace Orchestration

/-- A placeholder that whoever starts the scenario fills in, unless it has a default. -/
structure Argument where
  name : String
  description : String
  default : Option Json

def Argument.isRequired (a : Argument) : Bool := a.default.isNone

structure Constant where
  name : String
  value : Json

/-- Names an argument of the scenario with the given scope. -/
structure ArgumentRef where
  scope : Scope
  name : String
  deriving DecidableEq

/-- What stands for an argument in a description. -/
def ArgumentRef.placeholder (a : ArgumentRef) : String := "$" ++ a.name

def ArgumentRef.rescope (source target : Scope) (a : ArgumentRef) : ArgumentRef :=
  if a.scope = source then { a with scope := target } else a

/-- Names a constant of the scenario with the given scope. -/
structure ConstantRef where
  scope : Scope
  name : String
  deriving DecidableEq

def ConstantRef.rescope (source target : Scope) (c : ConstantRef) : ConstantRef :=
  if c.scope = source then { c with scope := target } else c

/-- The arguments and constants of the scenario with the given scope, in the order in which they
were added. -/
structure ParameterTable where
  scope : Scope
  owner : String
  arguments : List Argument := []
  constants : List Constant := []

namespace ParameterTable

def argument? (t : ParameterTable) (name : String) : Option Argument :=
  t.arguments.find? fun a => a.name = name

def constant? (t : ParameterTable) (name : String) : Option Constant :=
  t.constants.find? fun c => c.name = name

/-- The kind of parameter that uses a name. -/
def use? (t : ParameterTable) (name : String) : Option ParameterKind :=
  if (t.argument? name).isSome then some .argument
  else if (t.constant? name).isSome then some .constant
  else none

def ensureUnused (t : ParameterTable) (name : String) : Except Failure Unit :=
  match t.use? name with
  | some existing => throw (.duplicateName t.owner name existing)
  | none => return ()

def addArgument (t : ParameterTable) (name description : String) (default : Option Json) :
    Except Failure (ArgumentRef × ParameterTable) := do
  t.ensureUnused name
  return (⟨t.scope, name⟩, { t with arguments := t.arguments ++ [⟨name, description, default⟩] })

def addConstant (t : ParameterTable) (name : String) (value : Json) :
    Except Failure (ConstantRef × ParameterTable) := do
  t.ensureUnused name
  return (⟨t.scope, name⟩, { t with constants := t.constants ++ [⟨name, value⟩] })

def required (t : ParameterTable) : List Argument := t.arguments.filter Argument.isRequired

def argumentRef? (t : ParameterTable) (name : String) : Option ArgumentRef :=
  (t.argument? name).map fun a => ⟨t.scope, a.name⟩

def constantRef? (t : ParameterTable) (name : String) : Option ConstantRef :=
  (t.constant? name).map fun c => ⟨t.scope, c.name⟩

def resolvesArgument (t : ParameterTable) (a : ArgumentRef) : Bool :=
  a.scope = t.scope && (t.argument? a.name).isSome

def constantValue? (t : ParameterTable) (c : ConstantRef) : Option Json :=
  if c.scope = t.scope then (t.constant? c.name).map Constant.value else none

/-- The names in use, with the kind of each, arguments first. -/
def uses (t : ParameterTable) : List (String × ParameterKind) :=
  t.arguments.map (fun a => (a.name, .argument)) ++ t.constants.map (fun c => (c.name, .constant))

/-- The first use of a name that was used before, with the kind of the use before it. -/
def firstRepeated (seen : List (String × ParameterKind)) :
    List (String × ParameterKind) → Option (String × ParameterKind)
  | [] => none
  | (name, kind) :: rest =>
    match Entries.find? name seen with
    | some existing => some (name, existing)
    | none => firstRepeated ((name, kind) :: seen) rest

def checkUniqueNames (t : ParameterTable) : Except Failure Unit :=
  match firstRepeated [] t.uses with
  | some (name, existing) => throw (.duplicateName t.owner name existing)
  | none => return ()

def rescope (t : ParameterTable) (scope : Scope) : ParameterTable := { t with scope := scope }

end ParameterTable

end Orchestration
