import Orchestration.Composer
import Orchestration.Journal
import Orchestration.Scenario.Extract

/-!
Building in steps. A step works on a draft: a scenario together with the journal of what was done
so far. A step that fails ends the building and leaves what was done before it.
-/

namespace Orchestration

/-- A scenario in the making, and what happened so far. -/
structure Draft where
  scenario : Scenario
  journal : List Event := []

/-- A step of building that yields a value or fails. -/
def Build (α : Type) : Type := Draft → Except Failure α × Draft

namespace Build

protected def pure {α : Type} (value : α) : Build α := fun draft => (.ok value, draft)

protected def bind {α β : Type} (step : Build α) (next : α → Build β) : Build β := fun draft =>
  match step draft with
  | (.ok value, draft) => next value draft
  | (.error failure, draft) => (.error failure, draft)

instance : Monad Build where
  pure := Build.pure
  bind := Build.bind

def ofExcept {α : Type} (outcome : Except Failure α) : Build α := fun draft => (outcome, draft)

def note (event : Event) : Build Unit := fun draft =>
  (.ok (), { draft with journal := draft.journal ++ [event] })

def scenario : Build Scenario := fun draft => (.ok draft.scenario, draft)

/-- The step of a call on the scenario. If the call is refused, the draft stays as it is. -/
def call {α : Type} (f : Scenario → Except Failure (α × Scenario)) : Build α := fun draft =>
  match f draft.scenario with
  | .ok (value, scenario) => (.ok value, { draft with scenario := scenario })
  | .error failure => (.error failure, draft)

def noteAdded (handle : Handle) : Build Unit := do
  let s ← scenario
  note (.functionAdded s.name handle.kind handle.id)

def argument (name description : String) : Build ArgumentRef :=
  call fun s => s.addArgument name description

def add (payload : Payload) (wait : WaitClause) : Build Handle := do
  let handle ← call fun s => s.addFunction payload wait
  noteAdded handle
  return handle

def startJob (launch : JobLaunch) (wait : WaitClause) : Build Handle := add (.startJob launch) wait

def stopJobs (targets : List Handle) (wait : WaitClause) : Build Handle :=
  add (.stopJobs (targets.map Handle.reference)) wait

def startScenario (inner : Scenario) (bindings : Entries String ParameterValue)
    (wait : WaitClause) : Build Handle :=
  add (.startScenario inner bindings) wait

def declare (c : Composer) (id : Nat) (launched finished : List Nat) (wait : WaitClause)
    (payload : Payload) : Build Composer := do
  let (handle, c) ← call fun s => do
    let (handle, c, s) ← c.declare s id launched finished wait payload
    return ((handle, c), s)
  noteAdded handle
  return c

/-- The event of a match whose end point could not be written out. -/
def endpointEvent (m : JobMatch) : Option Event :=
  match m.endpoint with
  | some (.error failure) => some (.endpointUnresolved m.launch.job m.launch.entity failure)
  | _ => none

def extractJobs (predicate : JobLaunch → Bool) : Build (List ExtractedJob) := do
  let s ← scenario
  (s.jobMatches predicate).forM fun m =>
    match endpointEvent m with
    | some event => note event
    | none => return ()
  let found := s.extractJobs predicate
  note (.jobsExtracted s.name found.length)
  return found

/-- Builds another scenario on the side; its events join the journal. -/
def aside (start : Scenario) (steps : Build Unit) : Build Scenario := fun draft =>
  match steps { scenario := start, journal := draft.journal } with
  | (.ok _, inner) => (.ok inner.scenario, { draft with journal := inner.journal })
  | (.error failure, inner) => (.error failure, { draft with journal := inner.journal })

/-- The scope for a scenario that the next function is to start. -/
def nextScope : Build Scope := do
  let s ← scenario
  return s.scope.child s.ids.next

/-- Builds a scenario from a given start: the outcome, and what happened. -/
def run (start : Scenario) (steps : Build Unit) : Except Failure Scenario × List Event :=
  match steps { scenario := start } with
  | (.ok _, draft) => (.ok draft.scenario, draft.journal)
  | (.error failure, draft) => (.error failure, draft.journal)

end Build

end Orchestration
