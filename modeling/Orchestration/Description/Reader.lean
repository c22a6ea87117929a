import Orchestration.Description.Basic
import Orchestration.Json.Decoder

/-!
Descriptions read from JSON. What a function does is not tagged: of the four forms, the first one
that fits is taken. The kind of a function is read and not compared with that form.
-/

namespace Orchestration

open Json

def FunctionKind.ofName? (name : String) : Option FunctionKind :=
  [FunctionKind.startJob, .stopJobs, .startScenario, .stopScenario].find?
    fun kind => kind.name = name

namespace Description

def idDecoder : Decoder Nat := .natural Text.max32

def targetDecoder : Decoder Target :=
  .first [
    fun levels raw => (idDecoder levels raw).map .own,
    fun levels raw => (Decoder.pair idDecoder idDecoder levels raw).map fun p => .nested p.1 p.2]

/-- Reads an argument. A default of null is none. -/
def argumentDecoder : Decoder Argument := fun levels raw => do
  let record ← Decoder.fields ["name", "description", "default"] levels raw
  let name ← record.required 0 .string
  let description ← record.required 1 .string
  let default ← record.defaulted 2 (.option .any) none
  return ⟨name, description, default⟩

def constantDecoder : Decoder Constant := fun levels raw => do
  let record ← Decoder.fields ["name", "value"] levels raw
  let name ← record.required 0 .string
  let value ← record.required 1 .any
  return ⟨name, value⟩

def startJobDecoder : Decoder PayloadRecord := fun levels raw => do
  let record ← Decoder.fields ["entity_name", "job_name", "offset", "arguments"] levels raw
  let entity ← record.required 0 .string
  let job ← record.required 1 .string
  let offset ← record.required 2 .real
  let arguments ← record.required 3 (.dictionary .any)
  return .startJob entity job offset arguments

def stopJobsDecoder : Decoder PayloadRecord := fun levels raw => do
  let record ← Decoder.fields ["openbach_function_ids"] levels raw
  let targets ← record.required 0 (.list targetDecoder)
  return .stopJobs targets

/-- Reads the start of a scenario, whose description the given decoder reads. -/
def startScenarioDecoder (scenario : Decoder Description) : Decoder PayloadRecord :=
  fun levels raw => do
    let record ← Decoder.fields ["scenario_name", "scenario", "arguments"] levels raw
    let name ← record.required 0 .string
    let scenario ← record.required 1 scenario
    let arguments ← record.required 2 (.dictionary .any)
    return .startScenario name scenario arguments

def stopScenarioDecoder : Decoder PayloadRecord := fun levels raw => do
  let record ← Decoder.fields ["openbach_function_id"] levels raw
  let target ← record.required 0 targetDecoder
  return .stopScenario target

def payloadDecoder (scenario : Decoder Description) : Decoder PayloadRecord :=
  .first [startJobDecoder, stopJobsDecoder, startScenarioDecoder scenario, stopScenarioDecoder]

def functionDecoder (scenario : Decoder Description) : Decoder FunctionRecord :=
  fun levels raw => do
    let record ← Decoder.fields
      ["id", "kind", "payload", "wait_finished", "wait_launched", "wait_delay"] levels raw
    let id ← record.required 0 idDecoder
    let kind ← record.required 1 (.oneOf FunctionKind.ofName?)
    let payload ← record.required 2 (payloadDecoder scenario)
    let waitFinished ← record.required 3 (.list targetDecoder)
    let waitLaunched ← record.required 4 (.list targetDecoder)
    let waitDelay ← record.required 5 .real
    return ⟨id, kind, payload, waitFinished, waitLaunched, waitDelay⟩

/-- Reads a description in which scenarios are embedded less than `depth` deep. -/
def decoderTo : (depth : Nat) → Decoder Description
  | 0 => fun _ _ => none
  | depth + 1 => fun levels raw => do
    let record ← Decoder.fields
      ["name", "description", "arguments", "constants", "functions"] levels raw
    let name ← record.required 0 .string
    let description ← record.required 1 .string
    let arguments ← record.required 2 (.list argumentDecoder)
    let constants ← record.required 3 (.list constantDecoder)
    let functions ← record.required 4 (.list (functionDecoder (decoderTo depth)))
    return ⟨name, description, arguments, constants, functions⟩

/-- Reads a description. Each embedding takes more than one level, so there are never more
embeddings than levels. -/
def decoder : Decoder Description := decoderTo maxLevels

/-- Reads a function with everything embedded in it. -/
def functionReader : Decoder FunctionRecord := functionDecoder decoder

/-- Reads what a function does with everything embedded in it. -/
def payloadReader : Decoder PayloadRecord := payloadDecoder decoder

end Description

end Orchestration
