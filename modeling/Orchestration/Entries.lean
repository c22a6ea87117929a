/-!
Dictionaries as lists of entries in ascending key order, each key once. They are built by
`insert` alone, which keeps the order and lets the last value given for a key win.
-/

namespace Orchestration

/-- Entries of a dictionary, meant to be in ascending key order. -/
abbrev Entries (κ α : Type) := List (κ × α)

namespace Entries

variable {κ α : Type} [DecidableEq κ] [LT κ] [DecidableLT κ]

/-- Sets the value of `key`, at its place in the order. -/
def insert (key : κ) (value : α) : Entries κ α → Entries κ α
  | [] => [(key, value)]
  | entry :: rest =>
    if key < entry.1 then (key, value) :: entry :: rest
    else if key = entry.1 then (key, value) :: rest
    else entry :: insert key value rest

/-- The dictionary of the pairs, a later pair replacing an earlier one of the same key. -/
def ofList (pairs : List (κ × α)) : Entries κ α :=
  pairs.foldl (fun entries pair => insert pair.1 pair.2 entries) []

omit [LT κ] [DecidableLT κ] in
def find? (key : κ) : Entries κ α → Option α
  | [] => none
  | entry :: rest => if entry.1 = key then some entry.2 else find? key rest

omit [LT κ] [DecidableLT κ] in
def has (key : κ) (entries : Entries κ α) : Bool :=
  (find? key entries).isSome

omit [DecidableEq κ] [LT κ] [DecidableLT κ] in
/-- The keys in ascending order. -/
def keys (entries : Entries κ α) : List κ :=
  entries.map Prod.fst

omit [DecidableEq κ] [LT κ] [DecidableLT κ] in
/-- Every value changed, every key kept. -/
def mapValues {β : Type} (f : α → β) (entries : Entries κ α) : Entries κ β :=
  entries.map fun entry => (entry.1, f entry.2)

/-- The distinct members of a list in ascending order. -/
def distinct (members : List κ) : List κ :=
  keys (ofList (members.map fun member => (member, ())))

end Entries

end Orchestration
