import Orchestration.Reference

namespace Orchestration

inductive ParameterKind where
  | argument
  | constant
  deriving DecidableEq

def ParameterKind.words : ParameterKind → String
  | .argument => "an argument"
  | .constant => "a constant"

/-- Why a file gave no text. -/
inductive FileFault where
  | missing
  | notUnicode
  | other (reason : String)
  deriving DecidableEq

def FileFault.words : FileFault → String
  | .missing => "No such file or directory (os error 2)"
  | .notUnicode => "stream did not contain valid UTF-8"
  | .other reason => reason

/-- What a scenario was asked for and does not have. -/
inductive Missing where
  | foreignFunction (id : FunctionId) (scope : Scope)
  | function (id : FunctionId)
  | host (id : FunctionId)
  | nestedFunction (id : FunctionId) (scenario : String) (hostId : FunctionId)
  | functionOfEmbedded (id : FunctionId) (scenario : String)
  | argument (name : String)
  | constant (name : String)
  | argumentOfEmbedded (name scenario : String)
  | functionBinding (name scenario : String)
  | selfEmbedding (scenario : String)
  deriving DecidableEq

/-- The missing thing in words; `scopeName` names scopes. -/
def Missing.words (scopeName : Scope → String) : Missing → String
  | .foreignFunction id scope => s!"function #{id} belongs to scope {scopeName scope}"
  | .function id => s!"function #{id}"
  | .host id => s!"host function #{id}"
  | .nestedFunction id scenario hostId =>
    s!"function #{id} of scenario '{scenario}' hosted by #{hostId}"
  | .functionOfEmbedded id scenario =>
    s!"function #{id} does not belong to scenario '{scenario}'"
  | .argument name => s!"argument '{name}'"
  | .constant name => s!"constant '{name}'"
  | .argumentOfEmbedded name scenario => s!"argument '{name}' of scenario '{scenario}'"
  | .functionBinding name scenario =>
    s!"function reference bound to argument '{name}' of scenario '{scenario}'"
  | .selfEmbedding scenario => s!"scenario '{scenario}' cannot embed itself"

/-- What is wrong with the argument keys of a job launch. -/
inductive KeyFault where
  | missing (key : String)
  | unexpected (key : String)
  deriving DecidableEq

def KeyFault.words : KeyFault → String
  | .missing key => s!"missing required argument '{key}'"
  | .unexpected key => s!"unexpected argument '{key}'"

/-- What is wrong with a line of a traffic file. -/
inductive RecordFault where
  | tooShort
  | unknownKind (name : String)
  | fieldCount (expected : Nat) (kind : String) (found : Nat)
  | unreadable (field text : String)
  deriving DecidableEq

def RecordFault.words : RecordFault → String
  | .tooShort => "a traffic needs at least an id and a kind"
  | .unknownKind name => s!"unknown traffic kind '{name}'"
  | .fieldCount expected kind found =>
    s!"{expected} elements needed for {kind} traffic, got {found}"
  | .unreadable field text => s!"cannot parse {field} '{text}'"

inductive Failure where
  | file (fault : FileFault)
  | json
  | duplicateName (scenario name : String) (existing : ParameterKind)
  | duplicateId (id : Nat)
  | unresolved (scenario : String) (scope : Scope) (missing : Missing)
  | forwardReference (id dependency : Nat)
  | cycle (scenario : String) (id : FunctionId) (path : List FunctionId)
  | missingArgument (scenario argument : String)
  | malformedRecord (line : Nat) (fault : RecordFault)
  | kindMismatch (scenario : String) (id : FunctionId) (expected : FunctionKind)
  | unknownJob (job : String)
  | invalidArguments (job : String) (fault : KeyFault)
  | submission (reason : String)
  | timeout (instanceId : Nat) (limit : Duration)
  | durationOverflow
  deriving DecidableEq

/-- The failure in words; `scopeName` names scopes. -/
def Failure.message (scopeName : Scope → String) : Failure → String
  | .file fault => s!"File not found or could not be read: {fault.words}"
  | .json => "Failed to read or write JSON"
  | .duplicateName scenario name existing =>
    s!"Name '{name}' is already used by {existing.words} in scenario '{scenario}'"
  | .duplicateId id => s!"Duplicated id {id}"
  | .unresolved scenario scope missing =>
    s!"Unresolved reference in scenario '{scenario}' (scope {scopeName scope}): " ++
      missing.words scopeName
  | .forwardReference id dependency =>
    s!"Function {id} depends on {dependency}, which is not declared before it"
  | .cycle scenario id path =>
    s!"Function {id} in scenario '{scenario}' waits on a cycle through " ++
      FunctionId.labels path
  | .missingArgument scenario argument =>
    s!"Argument '{argument}' of scenario '{scenario}' has no bound value"
  | .malformedRecord line fault => s!"Malformed record at line {line}: {fault.words}"
  | .kindMismatch scenario id expected =>
    s!"Function {id} in scenario '{scenario}' is not a {expected.name}"
  | .unknownJob job => s!"Job '{job}' is not declared in the job registry"
  | .invalidArguments job fault => s!"Invalid arguments for job '{job}': {fault.words}"
  | .submission reason => s!"Controller rejected the request: {reason}"
  | .timeout instanceId limit =>
    s!"Scenario instance {instanceId} did not finish within {limit.text}"
  | .durationOverflow => "overflow when adding durations"

end Orchestration
