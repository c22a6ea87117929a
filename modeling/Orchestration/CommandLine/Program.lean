import Orchestration.CommandLine.Arguments
import Orchestration.CommandLine.Machine
import Orchestration.Configuration
import Orchestration.Loading

namespace Orchestration.CommandLine

/-- What the program leaves behind: its exit code, its output, and its complaint with the cause. -/
structure Outcome where
  code : Nat
  output : String := ""
  complaint : Option String := none
  cause : Option Failure := none

def version : String := "scenario_builder 0.1.0"

def usage : String :=
  "Usage: scenario_builder [--config PATH] [--post-processing-entity ENTITY] [--compact] " ++
  "COMMAND\n" ++
  "  traffic-mix FILE\n" ++
  "  network-delay --client ENTITY --ip-dst ADDRESS [--duration SECONDS] [--sequential]"

/-- The severity that a name asks for, in letters of any case; without a known name, that of
information. -/
def threshold (name : Option String) : Option Severity :=
  match name with
  | none => some .info
  | some name =>
    let name := String.ofList (name.toList.map Char.toUpper)
    if name = "OFF" then none
    else some ((Severity.all.find? fun severity => severity.name = name).getD .info)

structure Complaint where
  context : Option String
  failure : Failure

/-- A part of the program, which may end with a complaint. -/
abbrev Run (m : Type → Type) := ExceptT Complaint m

variable {m : Type → Type} [Monad m] (machine : Machine m)

def note (events : List Event) : Run m Unit :=
  events.forM fun event => liftM (machine.log event)

/-- Takes over what some building yielded. -/
def take {α : Type} (context : Option String) (built : Except Failure α × List Event) :
    Run m α := do
  note machine built.2
  match built.1 with
  | .ok value => return value
  | .error failure => throw ⟨context, failure⟩

def configuration (path : Option String) : Run m Configuration :=
  match path with
  | none => return {}
  | some path => do
    let text ← machine.readFile path
    take machine (some s!"failed to load configuration '{path}'")
      (Json.decodeFile Configuration.decoder text, [])

/-- Loads the registry that a configuration names, or else the one of the known jobs. -/
def registry (config : Configuration) : Run m JobRegistry :=
  match config.jobRegistry with
  | none => return .builtin config.strictJobs
  | some path => do
    let text ← machine.readFile path
    take machine (some "failed to load job registry")
      (RegistryFile.load path config.strictJobs text)

def scenario (registry : JobRegistry) (plotEntity : Option String) : Command → Run m Scenario
  | .trafficMix path => do
    let text ← machine.readFile path
    take machine (some s!"failed to build traffic mix from '{path}'")
      (TrafficMix.buildFile (.root 0) registry path text plotEntity)
  | .networkDelay client destinationIp duration order =>
    take machine (some "failed to build network delay scenario")
      (NetworkDelay.build (.root 0) registry ⟨client, destinationIp, duration, order, plotEntity⟩)

def descriptionText (options : Options) (s : Scenario) : Run m String := do
  let text ← take machine none
    (s.toText (if options.compact then .compact else .pretty), [])
  note machine [.scenarioSerialized s.name s.functions.length]
  return text

/-- Does what a command line asks for, up to the output. -/
def work (options : Options) (command : Command) : Run m String := do
  let config ← configuration machine options.config
  let jobs ← registry machine config
  let s ← scenario machine jobs options.plotEntity command
  descriptionText machine options s

/-- The first line of a complaint. A failure without context is told itself. -/
def Complaint.line (scopeName : Scope → String) (c : Complaint) : String :=
  "Error: " ++ c.context.getD (c.failure.message scopeName)

/-- The outcome of a complaint. An overflow is a crash, and not a complaint. -/
def Complaint.outcome (c : Complaint) : Outcome :=
  match c.failure with
  | .durationOverflow => { code := 101, cause := some c.failure }
  | failure => { code := 1, complaint := some (c.line scopeName), cause := some failure }

/-- Runs the program for the words of a command line and the name of a severity. -/
def run (words : List String) (severity : Option String) : m Outcome :=
  match parse words with
  | .error .usage => pure { code := 2 }
  | .error .help => pure { code := 0, output := usage ++ "\n" }
  | .error .version => pure { code := 0, output := version ++ "\n" }
  | .ok (options, command) => do
    let level := threshold severity
    let machine := machine.quieted level
    machine.openLog
    machine.log (.loggerReady level)
    let result ← (work machine options command).run
    match result with
    | .ok text => return { code := 0, output := text ++ "\n" }
    | .error complaint => return complaint.outcome

/-- Runs the program on the files of a tree: its outcome, and the tree that it leaves behind. -/
def runIn (t : FileTree) (words : List String) (severity : Option String) : Outcome × FileTree :=
  (run treeMachine words severity).run t

end Orchestration.CommandLine
