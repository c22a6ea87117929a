import Orchestration.Composer
import Orchestration.Traffic.Record

namespace Orchestration

/-- A line that was set aside: its number, its text without comment, and the reason. -/
structure RejectedLine where
  line : Nat
  content : String
  failure : Failure
  deriving DecidableEq

/-- What was read from a traffic file, in the order of its lines. -/
structure TrafficFile where
  records : List TrafficRecord := []
  rejected : List RejectedLine := []
  deriving DecidableEq

namespace TrafficFile

/-- Reads a numeral from a field of a line. -/
def readNumber (line : Nat) (field : String) (limit : Nat) (text : List Char) :
    Except Failure Nat :=
  match Text.readNumeral limit text with
  | some n => return n
  | none => throw (.malformedRecord line (.unreadable field (String.ofList text)))

/-- Reads the ids that a traffic waits for: `None`, or ids with hyphens between them. -/
def readIds (line : Nat) (text : List Char) : Except Failure (List Nat) :=
  if text = ['N', 'o', 'n', 'e'] then return []
  else (text.splitOnP (· == '-')).mapM (readNumber line "waited id" Text.max32)

/-- Reads the fields that only lines of the kind have; `wrongCount` is the failure of a line with
too few or too many of them. -/
def readParameters (line : Nat) (wrongCount : Failure) :
    TrafficKind → List (List Char) → Except Failure TrafficParameters
  | .voip, [port, codec] => do
    let port ← readNumber line "port" Text.max16 port
    return .voip port (String.ofList codec)
  | .webBrowsing, [runs, parallelRuns] => do
    let runs ← readNumber line "nb_runs" Text.max32 runs
    let parallelRuns ← readNumber line "nb_parallel_runs" Text.max32 parallelRuns
    return .webBrowsing runs parallelRuns
  | .dash, [protocol, tornadoPort] => do
    let tornadoPort ← readNumber line "tornado_port" Text.max16 tornadoPort
    return .dash (String.ofList protocol) tornadoPort
  | .dataTransfer, [port, size, tos, mtu] => do
    let port ← readNumber line "port" Text.max16 port
    let tos ← readNumber line "tos" Text.max32 tos
    let mtu ← readNumber line "mtu" Text.max32 mtu
    return .dataTransfer port (String.ofList size) tos mtu
  | _, _ => throw wrongCount

/-- Reads a line from its fields. The fields of the kind are read before the common ones. -/
def readFields (line : Nat) (fields : List (List Char)) : Except Failure TrafficRecord :=
  match fields with
  | id :: name :: rest =>
    match TrafficKind.ofName? (String.ofList name) with
    | none => throw (.malformedRecord line (.unknownKind (String.ofList name)))
    | some kind =>
      let wrongCount : Failure :=
        .malformedRecord line (.fieldCount kind.fieldCount kind.name fields.length)
      match rest with
      | source :: destination :: duration :: launched :: finished :: delay :: sourceIp ::
          destinationIp :: extra => do
        let parameters ← readParameters line wrongCount kind extra
        let id ← readNumber line "id" Text.max32 id
        let duration ← readNumber line "duration" Text.max64 duration
        let launched ← readIds line launched
        let finished ← readIds line finished
        let delay ← readNumber line "delay" Text.max64 delay
        return {
          id := id
          source := String.ofList source
          destination := String.ofList destination
          duration := duration
          waitLaunched := launched
          waitFinished := finished
          delay := delay
          sourceIp := String.ofList sourceIp
          destinationIp := String.ofList destinationIp
          parameters := parameters }
      | _ => throw wrongCount
  | _ => throw (.malformedRecord line .tooShort)

/-- Reads a line whose comment has been cut. -/
def readRecord (line : Nat) (text : List Char) : Except Failure TrafficRecord :=
  readFields line (Text.words text)

/-- The text of a line before its comment, without blanks around it. -/
def content (line : List Char) : List Char :=
  Text.trim (line.takeWhile (· ≠ '#'))

def declares (file : TrafficFile) (id : Nat) : Bool :=
  file.records.any fun r => r.id = id

/-- Reads a line after those that have been read. -/
def accept (file : TrafficFile) (line : Nat) (text : List Char) :
    Except Failure TrafficRecord := do
  let record ← readRecord line text
  checkDeclaration file.declares record.id record.waitLaunched record.waitFinished
  return record

/-- Takes in the next line, which is given with its number. -/
def addLine (file : TrafficFile) (line : List Char × Nat) : TrafficFile :=
  let text := content line.1
  if text.isEmpty then file
  else
    match file.accept line.2 text with
    | .ok record => { file with records := file.records ++ [record] }
    | .error failure =>
      { file with rejected := file.rejected ++ [⟨line.2, String.ofList text, failure⟩] }

/-- Reads a text. Lines are numbered from one. -/
def ofText (text : String) : TrafficFile :=
  ((Text.lines text.toList).zipIdx 1).foldl addLine {}

end TrafficFile

end Orchestration
