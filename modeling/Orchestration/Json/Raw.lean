import Orchestration.Json.Numeral

/-!
A JSON text as it is written, before anything is asked of it: members in their order and with
repetitions, to any depth. The reader checks the grammar alone.
-/

namespace Orchestration.Json

/-- A JSON text as written. `none` stands for what the grammar admits and no value has: a number
too large for a double, or escapes that leave a surrogate unpaired. -/
inductive Raw where
  | null
  | bool (value : Bool)
  | number (value : Option Number)
  | string (text : Option String)
  | array (items : List Raw)
  | object (members : List (Option String × Raw))

namespace Raw

def isSpace (c : Char) : Bool := c = ' ' || c = '\t' || c = '\n' || c = '\r'

/-- The text from its first character that is no blank. -/
def skip (text : List Char) : List Char := text.dropWhile isSpace

/-- A character between quotes, or a 16-bit unit given by its number. -/
inductive Piece where
  | char (c : Char)
  | unit (code : Nat)

def hexValue? (c : Char) : Option Nat :=
  if '0' ≤ c ∧ c ≤ '9' then some (c.toNat - 48)
  else if 'a' ≤ c ∧ c ≤ 'f' then some (c.toNat - 87)
  else if 'A' ≤ c ∧ c ≤ 'F' then some (c.toNat - 55)
  else none

/-- The number that four hexadecimal digits write. -/
def hexUnit? (a b c d : Char) : Option Nat := do
  let a ← hexValue? a
  let b ← hexValue? b
  let c ← hexValue? c
  let d ← hexValue? d
  return ((a * 16 + b) * 16 + c) * 16 + d

def shortEscape? (c : Char) : Option Char :=
  if c = '\"' ∨ c = '\\' ∨ c = '/' then some c
  else if c = 'b' then some '\x08'
  else if c = 'f' then some '\x0c'
  else if c = 'n' then some '\n'
  else if c = 'r' then some '\r'
  else if c = 't' then some '\t'
  else none

/-- The pieces up to the closing quote, and the text after it. -/
def pieces : List Char → Option (List Piece × List Char)
  | [] => none
  | '\\' :: 'u' :: a :: b :: c :: d :: rest => do
    let code ← hexUnit? a b c d
    let (others, rest) ← pieces rest
    return (.unit code :: others, rest)
  | '\\' :: letter :: rest => do
    let c ← shortEscape? letter
    let (others, rest) ← pieces rest
    return (.char c :: others, rest)
  | c :: rest =>
    if c = '\"' then some ([], rest)
    else if c = '\\' ∨ c.toNat < 0x20 then none
    else do
      let (others, rest) ← pieces rest
      return (.char c :: others, rest)

/-- Whether a unit is the first half of a surrogate pair. -/
def isHigh (code : Nat) : Bool := 0xD800 ≤ code && code ≤ 0xDBFF

/-- Whether a unit is the second half of a surrogate pair. -/
def isLow (code : Nat) : Bool := 0xDC00 ≤ code && code ≤ 0xDFFF

/-- The characters that pieces stand for: a high surrogate needs a low one right after it. -/
def assemble : List Piece → Option (List Char)
  | [] => some []
  | .char c :: rest => (assemble rest).map (c :: ·)
  | .unit high :: .unit low :: rest =>
    if isHigh high then
      if isLow low then
        (assemble rest).map
          (Char.ofNat (0x10000 + (high - 0xD800) * 0x400 + (low - 0xDC00)) :: ·)
      else none
    else if isLow high then none
    else (assemble (.unit low :: rest)).map (Char.ofNat high :: ·)
  | .unit code :: rest =>
    if isHigh code || isLow code then none else (assemble rest).map (Char.ofNat code :: ·)

/-- The text after an opening quote, and what follows its closing quote. -/
def quotedRest (text : List Char) : Option (Option String × List Char) := do
  let (found, rest) ← pieces text
  return ((assemble found).map String.ofList, rest)

/-- The digits at the beginning, and the rest. -/
def digits (text : List Char) : List Char × List Char := text.span Char.isDigit

/-- The digits before the point: a zero alone, or digits that do not begin with a zero. -/
def wholePart (text : List Char) : Option (List Char × List Char) :=
  match digits text with
  | ([], _) => none
  | ('0' :: _ :: _, _) => none
  | found => some found

/-- A point and at least one digit, where there is a point. -/
def fractionPart (text : List Char) : Option (Option (List Char) × List Char) :=
  match text with
  | '.' :: rest =>
    match digits rest with
    | ([], _) => none
    | (found, rest) => some (some found, rest)
  | _ => some (none, text)

def exponentSign (text : List Char) : Bool × List Char :=
  match text with
  | '+' :: rest => (false, rest)
  | '-' :: rest => (true, rest)
  | _ => (false, text)

/-- A letter e, a sign if wanted and at least one digit, where there is a letter e. -/
def exponentPart (text : List Char) : Option (Option (Bool × List Char) × List Char) :=
  match text with
  | [] => some (none, [])
  | c :: rest =>
    if c = 'e' ∨ c = 'E' then
      let (negative, rest) := exponentSign rest
      match digits rest with
      | ([], _) => none
      | (found, rest) => some (some (negative, found), rest)
    else some (none, text)

def numeral (text : List Char) : Option (Numeral × List Char) := do
  let (negative, text) := match text with
    | '-' :: rest => (true, rest)
    | _ => (false, text)
  let (whole, text) ← wholePart text
  let (fraction, text) ← fractionPart text
  let (exponent, text) ← exponentPart text
  return (⟨negative, whole, fraction, exponent⟩, text)

mutual

/-- A value and the text after it. The first argument bounds the length of the text. -/
def value : Nat → List Char → Option (Raw × List Char)
  | 0, _ => none
  | fuel + 1, text =>
    match skip text with
    | 'n' :: 'u' :: 'l' :: 'l' :: rest => some (.null, rest)
    | 't' :: 'r' :: 'u' :: 'e' :: rest => some (.bool true, rest)
    | 'f' :: 'a' :: 'l' :: 's' :: 'e' :: rest => some (.bool false, rest)
    | '\"' :: rest => do
      let (found, rest) ← quotedRest rest
      return (.string found, rest)
    | '[' :: rest =>
      match skip rest with
      | ']' :: rest => some (.array [], rest)
      | _ => do
        let (found, rest) ← items fuel rest
        return (.array found, rest)
    | '{' :: rest =>
      match skip rest with
      | '}' :: rest => some (.object [], rest)
      | _ => do
        let (found, rest) ← members fuel rest
        return (.object found, rest)
    | text => do
      let (found, rest) ← numeral text
      return (.number found.value?, rest)

/-- Items up to the closing bracket. -/
def items : Nat → List Char → Option (List Raw × List Char)
  | 0, _ => none
  | fuel + 1, text => do
    let (item, rest) ← value fuel text
    match skip rest with
    | ',' :: rest => do
      let (others, rest) ← items fuel rest
      return (item :: others, rest)
    | ']' :: rest => some ([item], rest)
    | _ => none

/-- Members up to the closing brace. -/
def members : Nat → List Char → Option (List (Option String × Raw) × List Char)
  | 0, _ => none
  | fuel + 1, text =>
    match skip text with
    | '\"' :: rest => do
      let (key, rest) ← quotedRest rest
      match skip rest with
      | ':' :: rest => do
        let (item, rest) ← value fuel rest
        match skip rest with
        | ',' :: rest => do
          let (others, rest) ← members fuel rest
          return ((key, item) :: others, rest)
        | '}' :: rest => some ([(key, item)], rest)
        | _ => none
      | _ => none
    | _ => none

end

/-- Reads a text that holds one value and blanks around it. Every two steps of the reader take at
least one character. -/
def read? (text : String) : Option Raw :=
  let chars := text.toList
  match value (2 * chars.length + 1) chars with
  | some (found, rest) => if (skip rest).isEmpty then some found else none
  | none => none

end Raw

end Orchestration.Json
