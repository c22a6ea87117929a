import Orchestration.Json.Raw

/-!
Decoders of written JSON. A decoder knows how many more levels of arrays and objects it may enter;
whatever no decoder asks for is neither counted nor looked at.
-/

namespace Orchestration.Json

/-- Reads a value of some type, entering at most the given number of levels. -/
abbrev Decoder (α : Type) := Nat → Raw → Option α

/-- The levels of arrays and objects that a text may nest. -/
def maxLevels : Nat := 127

mutual

/-- The value itself: the members of its objects in key order, the last of each key. -/
def ofRaw? (levels : Nat) : Raw → Option Json
  | .null => some .null
  | .bool b => some (.bool b)
  | .number n => n.map .number
  | .string s => s.map .string
  | .array items =>
    if levels = 0 then none else (itemsOfRaw? (levels - 1) items).map .array
  | .object members =>
    if levels = 0 then none
    else (membersOfRaw? (levels - 1) members).map fun found => ofEntries (Entries.ofList found)

def itemsOfRaw? (levels : Nat) : List Raw → Option (List Json)
  | [] => some []
  | item :: items => do
    let item ← ofRaw? levels item
    let items ← itemsOfRaw? levels items
    return item :: items

/-- The members of an object, in the order in which they are written. -/
def membersOfRaw? (levels : Nat) : List (Option String × Raw) → Option (List (String × Json))
  | [] => some []
  | (key, value) :: members => do
    let key ← key
    let value ← ofRaw? levels value
    let members ← membersOfRaw? levels members
    return (key, value) :: members

end

namespace Decoder

def any : Decoder Json := ofRaw?

def string : Decoder String
  | _, .string text => text
  | _, _ => none

def bool : Decoder Bool
  | _, .bool value => some value
  | _, _ => none

/-- A natural number up to a limit, written as an integer. -/
def natural (limit : Nat) : Decoder Nat
  | _, .number (some (.integer n)) => if 0 ≤ n ∧ n ≤ limit then some n.toNat else none
  | _, _ => none

/-- A double; integers are rounded. -/
def real : Decoder Double
  | _, .number (some (.real x)) => some x
  | _, .number (some (.integer n)) =>
    let magnitude := Double.ofNat n.natAbs
    some (if n < 0 then magnitude.neg else magnitude)
  | _, _ => none

/-- Something, or null for nothing. -/
def option {α : Type} (decoder : Decoder α) : Decoder (Option α)
  | _, .null => some none
  | levels, raw => (decoder levels raw).map some

def list {α : Type} (decoder : Decoder α) : Decoder (List α)
  | levels + 1, .array items => items.mapM (decoder levels)
  | _, _ => none

/-- Two parts, as an array. -/
def pair {α β : Type} (first : Decoder α) (second : Decoder β) : Decoder (α × β)
  | levels + 1, .array [a, b] => do
    let a ← first levels a
    let b ← second levels b
    return (a, b)
  | _, _ => none

/-- An object of equal parts under free keys; the last of each key counts. -/
def dictionary {α : Type} (decoder : Decoder α) : Decoder (Entries String α)
  | levels + 1, .object members => do
    let found ← members.mapM fun (key, value) => do
      let key ← key
      let value ← decoder levels value
      return (key, value)
    return Entries.ofList found
  | _, _ => none

/-- One of some names, alone or as the only key of an object whose value is null. -/
def oneOf {α : Type} (named : String → Option α) : Decoder α
  | _, .string (some name) => named name
  | _ + 1, .object [(some name, .null)] => named name
  | _, _ => none

/-- The first decoder that fits. The whole value has to be one that `any` reads. -/
def first {α : Type} (decoders : List (Decoder α)) : Decoder α := fun levels raw => do
  let _ ← any levels raw
  decoders.findSome? fun decoder => decoder levels raw

/-- The parts of a record, by the order of its field names, and the levels left inside it. -/
structure Fields where
  levels : Nat
  found : List (Option Raw)

def occurrences (name : String) (members : List (Option String × Raw)) : Nat :=
  members.countP fun member => member.1 = some name

def member? (name : String) (members : List (Option String × Raw)) : Option Raw :=
  (members.find? fun member => member.1 = some name).map Prod.snd

/-- The parts of a record given as an object, or as an array in the order of the fields. In an
object, keys have to be readable, no field may be given twice, and other keys are passed over; an
array may stop early but not go on. -/
def fields (names : List String) : Decoder Fields
  | levels + 1, .object members =>
    if members.all (fun member => member.1.isSome) &&
        names.all (fun name => occurrences name members ≤ 1) then
      some ⟨levels, names.map fun name => member? name members⟩
    else none
  | levels + 1, .array items =>
    if items.length ≤ names.length then some ⟨levels, items.map some⟩ else none
  | _, _ => none

def Fields.at? (record : Fields) (place : Nat) : Option Raw := (record.found[place]?).join

/-- A field that has to be given. -/
def Fields.required {α : Type} (record : Fields) (place : Nat) (decoder : Decoder α) : Option α :=
  (record.at? place).bind (decoder record.levels)

/-- A field with a value for when it is not given. -/
def Fields.defaulted {α : Type} (record : Fields) (place : Nat) (decoder : Decoder α)
    (default : α) : Option α :=
  match record.at? place with
  | none => some default
  | some raw => decoder record.levels raw

end Decoder

def decode? {α : Type} (decoder : Decoder α) (text : String) : Option α :=
  (Raw.read? text).bind (decoder maxLevels)

end Orchestration.Json
