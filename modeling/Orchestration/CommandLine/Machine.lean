import Orchestration.FileTree
import Orchestration.Journal

namespace Orchestration.CommandLine

/-- What the program asks of a machine. -/
structure Machine (m : Type → Type) where
  readFile : String → m (Except FileFault String)
  openLog : m Unit
  log : Event → m Unit

/-- The machine that keeps from its log what does not pass a threshold. -/
def Machine.quieted {m : Type → Type} [Monad m] (machine : Machine m) (level : Option Severity) :
    Machine m :=
  { machine with
    log := fun event => if event.passes level then machine.log event else pure () }

/-- The name of a scope in messages: the numbers on its path. -/
def scopeName (scope : Scope) : String :=
  ".".intercalate (scope.path.reverse.map toString)

def logLine (event : Event) : String := event.line scopeName

def logDirectory : String := "logs"

def logName : String := "scenario_builder.log"

def logPlace (t : FileTree) : Place := t.workplace ++ [logDirectory, logName]

def log? (t : FileTree) : Option String := (t.file? (logPlace t)).bind Except.toOption

/-- The machine whose files are those of a tree. -/
def treeMachine : Machine (StateM FileTree) where
  readFile path := do
    let t ← get
    return t.read path
  openLog := modify fun t => t.touch (logPlace t)
  log event := modify fun t => t.append (logPlace t) (logLine event ++ "\n")

end Orchestration.CommandLine
