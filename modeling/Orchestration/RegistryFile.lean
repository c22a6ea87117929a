import Orchestration.JobRegistry
import Orchestration.Json.Decoder

namespace Orchestration

open Json

structure JobEntry where
  name : String
  required : List String
  optional : List String
  deriving DecidableEq

/-- A registry file: its jobs in their order, a name perhaps repeated. -/
structure RegistryFile where
  strict : Bool
  jobs : List JobEntry
  deriving DecidableEq

def JobEntry.definition (e : JobEntry) : JobDefinition :=
  .ofKeys e.name e.required e.optional

def Json.ofStrings (texts : List String) : Json := .array (texts.map .string)

def JobEntry.toJson (e : JobEntry) : Json :=
  .object [("name", .string e.name), ("required", .ofStrings e.required),
    ("optional", .ofStrings e.optional)]

namespace RegistryFile

/-- The registry of a file; of the jobs of one name, the last counts. -/
def toRegistry (file : RegistryFile) : JobRegistry :=
  .ofDefinitions file.strict (file.jobs.map JobEntry.definition)

/-- How many of the jobs take the place of an earlier one. -/
def replacements (file : RegistryFile) : Nat := file.jobs.length - file.toRegistry.size

def toJson (file : RegistryFile) : Json :=
  .object [("strict", .bool file.strict), ("jobs", .array (file.jobs.map JobEntry.toJson))]

def entryDecoder : Decoder JobEntry := fun levels raw => do
  let record ← Decoder.fields ["name", "required", "optional"] levels raw
  let name ← record.required 0 .string
  let required ← record.defaulted 1 (.list .string) []
  let optional ← record.defaulted 2 (.list .string) []
  return ⟨name, required, optional⟩

def decoder : Decoder RegistryFile := fun levels raw => do
  let record ← Decoder.fields ["strict", "jobs"] levels raw
  let strict ← record.defaulted 0 .bool false
  let jobs ← record.required 1 (.list entryDecoder)
  return ⟨strict, jobs⟩

end RegistryFile

end Orchestration
