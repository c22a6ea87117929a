import Orchestration.Configuration
import Orchestration.Observer.Status
import Orchestration.Scenario.Describe

/-!
Submitting a scenario and following its instance until it ends. The side that runs scenarios is
given by its answers.
-/

namespace Orchestration

/-- The time between polls, and the time after which an instance is given up. -/
structure ObserverConfig where
  pollInterval : Duration
  timeout : Option Duration
  deriving DecidableEq

def ObserverConfig.ofSettings (settings : ObserverSettings) : ObserverConfig :=
  ⟨.ofMilliseconds settings.pollIntervalMs, settings.timeoutS.map .ofSeconds⟩

/-- A description that was handed over, with the values of its arguments. -/
structure Submission where
  description : Description
  arguments : Entries String Json

/-- What came of a launch: what was handed over, and the instance or the failure. -/
structure LaunchOutcome where
  submitted : List Submission
  outcome : Except Failure Nat

/-- What came of waiting: the instances that were asked for, one for each poll, and the status or
the failure that ended the waiting. -/
structure WaitOutcome where
  polled : List Nat
  outcome : Except Failure InstanceStatus

namespace Observer

/-- Checks the values given to the arguments of a scenario: none is missing, and all are
declared. -/
def checkArguments (s : Scenario) (arguments : Entries String Json) : Except Failure Unit :=
  match s.parameters.required.find? fun a => !Entries.has a.name arguments with
  | some a => throw (.missingArgument s.name a.name)
  | none =>
    match (Entries.keys arguments).find? fun name => (s.parameters.argument? name).isNone with
    | some name => throw (s.unresolved (.argument name))
    | none => return ()

def submission (s : Scenario) (arguments : Entries String Json) : Except Failure Submission := do
  checkArguments s arguments
  let description ← s.describe
  return ⟨description, arguments⟩

/-- Hands a scenario over, if nothing speaks against it. -/
def launch (submit : Submission → Except Failure Nat) (s : Scenario)
    (arguments : Entries String Json) : LaunchOutcome :=
  match submission s arguments with
  | .ok submitted => ⟨[submitted], submit submitted⟩
  | .error failure => ⟨[], .error failure⟩

/-- What the answer to a poll, at a time since the waiting began, decides. -/
def verdict (config : ObserverConfig) (instanceId : Nat)
    (answer : Except Failure InstanceStatus) (elapsed : Duration) :
    Option (Except Failure InstanceStatus) :=
  match answer with
  | .error failure => some (.error failure)
  | .ok status =>
    if status.state.isTerminal then some (.ok status)
    else
      match config.timeout with
      | some limit =>
        if limit.nanoseconds ≤ elapsed.nanoseconds then
          some (.error (.timeout instanceId limit))
        else none
      | none => none

/-- Polls an instance until an answer decides, at most `polls` times more; `number` polls went
before. -/
def waitFrom (config : ObserverConfig) (instanceId : Nat)
    (answer : Nat → Except Failure InstanceStatus) (elapsed : Nat → Duration) :
    (polls number : Nat) → Option WaitOutcome
  | 0, _ => none
  | polls + 1, number =>
    match verdict config instanceId (answer number) (elapsed number) with
    | some outcome => some ⟨List.replicate (number + 1) instanceId, outcome⟩
    | none => waitFrom config instanceId answer elapsed polls (number + 1)

/-- Polls an instance until an answer decides; nothing if `polls` answers do not. Poll `k` is
answered by `answer k`, at the time `elapsed k`. -/
def wait (config : ObserverConfig) (instanceId : Nat)
    (answer : Nat → Except Failure InstanceStatus) (elapsed : Nat → Duration) (polls : Nat) :
    Option WaitOutcome :=
  waitFrom config instanceId answer elapsed polls 0

/-- Hands a scenario over and polls the instance that was made of it; `answer` depends on that
instance. -/
def launchAndWait (config : ObserverConfig) (submit : Submission → Except Failure Nat)
    (answer : Nat → Nat → Except Failure InstanceStatus) (elapsed : Nat → Duration)
    (polls : Nat) (s : Scenario) (arguments : Entries String Json) :
    LaunchOutcome × Option WaitOutcome :=
  let launched := launch submit s arguments
  (launched,
    match launched.outcome with
    | .ok instanceId => wait config instanceId (answer instanceId) elapsed polls
    | .error failure => some ⟨[], .error failure⟩)

end Observer

end Orchestration
