import Orchestration.Failure

namespace Orchestration

inductive Severity where
  | error
  | warn
  | info
  | debug
  | trace
  deriving DecidableEq

namespace Severity

/-- All severities, the most important first. -/
def all : List Severity := [.error, .warn, .info, .debug, .trace]

def name : Severity → String
  | .error => "ERROR"
  | .warn => "WARN"
  | .info => "INFO"
  | .debug => "DEBUG"
  | .trace => "TRACE"

/-- The place of a severity, zero for the most important. -/
def depth : Severity → Nat
  | .error => 0
  | .warn => 1
  | .info => 2
  | .debug => 3
  | .trace => 4

end Severity

inductive Event where
  | loggerReady (level : Option Severity)
  | registryLoaded (path : String) (jobs : Nat)
  | definitionReplaced
  | trafficFileOpened (path : String)
  | lineIgnored (line : Nat) (text : String) (failure : Failure)
  | trafficFileRead (kept ignored : Nat)
  | noTraffic (path : String)
  | functionAdded (scenario : String) (kind : FunctionKind) (id : FunctionId)
  | endpointUnresolved (job entity : String) (failure : Failure)
  | jobsExtracted (scenario : String) (count : Nat)
  | trafficsComposed (scenario : String) (count : Nat)
  | serverStopping (scenario entity : String)
  | scenarioBuilt (scenario : String) (functions : Nat)
  | scenarioSerialized (scenario : String) (functions : Nat)

namespace Event

def severity : Event → Severity
  | .loggerReady _ => .debug
  | .registryLoaded _ _ => .info
  | .definitionReplaced => .debug
  | .trafficFileOpened _ => .info
  | .lineIgnored _ _ _ => .warn
  | .trafficFileRead _ _ => .info
  | .noTraffic _ => .warn
  | .functionAdded _ _ _ => .debug
  | .endpointUnresolved _ _ _ => .warn
  | .jobsExtracted _ _ => .debug
  | .trafficsComposed _ _ => .info
  | .serverStopping _ _ => .debug
  | .scenarioBuilt _ _ => .info
  | .scenarioSerialized _ _ => .info

def levelName : Option Severity → String
  | none => "OFF"
  | some severity => severity.name

/-- The event in words; `scopeName` names scopes. -/
def message (scopeName : Scope → String) : Event → String
  | .loggerReady level => s!"Logger ready at level {levelName level}."
  | .registryLoaded path jobs => s!"Job registry loaded from '{path}' ({jobs} jobs)."
  | .definitionReplaced => "Job definition replaced in registry"
  | .trafficFileOpened path => s!"Loading traffic dependency file '{path}'."
  | .lineIgnored line text failure =>
    s!"Ignoring line {line} \"{text}\": " ++ failure.message scopeName
  | .trafficFileRead kept ignored =>
    s!"Dependency file parsed: {kept} traffics kept, {ignored} lines ignored."
  | .noTraffic path => s!"No usable traffic in '{path}'."
  | .functionAdded scenario kind id => s!"Scenario '{scenario}': added {kind.name} #{id}"
  | .endpointUnresolved job entity failure =>
    s!"Endpoint of job '{job}' on '{entity}' could not be resolved: " ++
      failure.message scopeName
  | .jobsExtracted scenario count =>
    s!"Scenario '{scenario}': extraction matched {count} job instances."
  | .trafficsComposed scenario count => s!"Scenario '{scenario}': {count} traffics composed."
  | .serverStopping scenario entity =>
    s!"Scenario '{scenario}': stopping server on '{entity}' after every traffic."
  | .scenarioBuilt scenario functions =>
    s!"Scenario '{scenario}' built with {functions} functions."
  | .scenarioSerialized scenario functions =>
    s!"Scenario '{scenario}' serialized with {functions} functions."

/-- Whether an event passes a threshold; without a threshold, none does. -/
def passes (level : Option Severity) (event : Event) : Bool :=
  level.any fun bound => event.severity.depth ≤ bound.depth

def line (scopeName : Scope → String) (event : Event) : String :=
  event.severity.name ++ " " ++ event.message scopeName

end Event

end Orchestration
