import Orchestration.Duration
import Orchestration.Json.Decoder
import Orchestration.Json.Printer

namespace Orchestration

open Json

/-- How an instance is observed, in milliseconds and seconds. -/
structure ObserverSettings where
  pollIntervalMs : Nat := 1000
  timeoutS : Option Nat := none
  deriving DecidableEq

/-- A configuration: the path of a job registry file, whether unknown jobs are refused, and how
instances are observed. -/
structure Configuration where
  jobRegistry : Option String := none
  strictJobs : Bool := false
  observer : ObserverSettings := {}
  deriving DecidableEq

def Json.ofOption {α : Type} (toJson : α → Json) : Option α → Json
  | none => .null
  | some value => toJson value

namespace ObserverSettings

def toJson (o : ObserverSettings) : Json :=
  .object [("pollIntervalMs", .ofNat o.pollIntervalMs), ("timeoutS", .ofOption .ofNat o.timeoutS)]

def decoder : Decoder ObserverSettings := fun levels raw => do
  let record ← Decoder.fields ["pollIntervalMs", "timeoutS"] levels raw
  let interval ← record.defaulted 0 (.natural Text.max64) 1000
  let timeout ← record.defaulted 1 (.option (.natural Text.max64)) none
  return ⟨interval, timeout⟩

end ObserverSettings

namespace Configuration

def toJson (c : Configuration) : Json :=
  .object [
    ("jobRegistry", .ofOption .string c.jobRegistry),
    ("strictJobs", .bool c.strictJobs),
    ("observer", c.observer.toJson)]

def decoder : Decoder Configuration := fun levels raw => do
  let record ← Decoder.fields ["jobRegistry", "strictJobs", "observer"] levels raw
  let registry ← record.defaulted 0 (.option .string) none
  let strict ← record.defaulted 1 .bool false
  let observer ← record.defaulted 2 ObserverSettings.decoder {}
  return ⟨registry, strict, observer⟩

end Configuration

end Orchestration
