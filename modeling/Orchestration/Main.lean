import Orchestration.CommandLine.Program

open Orchestration

def readText (path : String) : IO (Except FileFault String) := do
  try
    let bytes ← IO.FS.readBinFile path
    match String.fromUTF8? bytes with
    | some text => return .ok text
    | none => return .error .notUnicode
  catch
    | .noFileOrDirectory .. => return .error .missing
    | failure => return .error (.other (toString failure))

def logPath : String := CommandLine.logDirectory ++ "/" ++ CommandLine.logName

def writeLog (text : String) : IO Unit := do
  let file ← IO.FS.Handle.mk logPath .append
  file.putStr text

/-- Makes the log ready; if it cannot be written, the program goes on without. -/
def openLog : IO Unit := do
  try
    IO.FS.createDirAll CommandLine.logDirectory
    writeLog ""
  catch
    | failure => IO.eprintln s!"Logging to stderr only: {failure}"

/-- Tells an event, and adds it to the log where that is possible. -/
def tell (event : Event) : IO Unit := do
  let line := CommandLine.logLine event
  IO.eprintln line
  try
    writeLog (line ++ "\n")
  catch
    | _ => pure ()

def thisMachine : CommandLine.Machine IO where
  readFile := readText
  openLog := openLog
  log := tell

def main (words : List String) : IO UInt32 := do
  let severity ← IO.getEnv "RUST_LOG"
  let outcome ← CommandLine.run thisMachine words severity
  IO.print outcome.output
  if outcome.code = 2 then IO.eprintln CommandLine.usage
  match outcome.complaint with
  | some line => IO.eprintln line
  | none => pure ()
  match outcome.cause with
  | some failure =>
    IO.eprintln s!"Caused by: {failure.message CommandLine.scopeName}"
  | none => pure ()
  return outcome.code.toUInt32
