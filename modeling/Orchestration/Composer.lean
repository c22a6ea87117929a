import Orchestration.Scenario.Build

namespace Orchestration

/-- Checks a declaration: its id is new, and whatever it waits for has a smaller id and is declared
already. -/
def checkDeclaration (isDeclared : Nat → Bool) (id : Nat) (launched finished : List Nat) :
    Except Failure Unit :=
  if isDeclared id then throw (.duplicateId id)
  else
    match (launched ++ finished).find? fun dependency =>
        id ≤ dependency || !isDeclared dependency with
    | some dependency => throw (.forwardReference id dependency)
    | none => return ()

/-- The handles of the functions declared so far, by outside id. -/
structure Composer where
  declared : Entries Nat Handle := []

namespace Composer

def handle? (c : Composer) (id : Nat) : Option Handle := Entries.find? id c.declared

/-- All handles, by ascending id. -/
def handles (c : Composer) : List Handle := c.declared.map Prod.snd

def check (c : Composer) (id : Nat) (launched finished : List Nat) : Except Failure Unit :=
  checkDeclaration (fun id => (c.handle? id).isSome) id launched finished

/-- A clause that waits, beyond what it waits for already, for the functions of some ids. -/
def extendWait (c : Composer) (wait : WaitClause) (launched finished : List Nat) : WaitClause :=
  (wait.afterAllLaunched ((launched.filterMap c.handle?).map Handle.reference)).afterAllFinished
    ((finished.filterMap c.handle?).map Handle.reference)

def declare (c : Composer) (s : Scenario) (id : Nat) (launched finished : List Nat)
    (wait : WaitClause) (payload : Payload) : Except Failure (Handle × Composer × Scenario) := do
  c.check id launched finished
  let (handle, s) ← s.addFunction payload (c.extendWait wait launched finished)
  return (handle, ⟨Entries.insert id handle c.declared⟩, s)

end Composer

end Orchestration
