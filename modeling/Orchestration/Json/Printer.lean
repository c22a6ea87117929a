import Orchestration.Decimal.Shortest
import Orchestration.Json.Basic

namespace Orchestration.Json

/-- Numbers are written plainly from `0.00001` on and below `1e+16`. -/
def numberLayout : Decimal.Layout := ⟨-5, 16⟩

def integerText (n : Int) : List Char :=
  (if n < 0 then ['-'] else []) ++ Nat.toDigits 10 n.natAbs

def Number.text : Number → List Char
  | .integer n => integerText n
  | .real x => numberLayout.text x

def hexDigit (n : Nat) : Char := Nat.digitChar n

/-- A character inside quotes: quotes, backslashes and control characters are escaped. -/
def escape (c : Char) : List Char :=
  if c = '\"' then ['\\', '\"']
  else if c = '\\' then ['\\', '\\']
  else if c = '\x08' then ['\\', 'b']
  else if c = '\x0c' then ['\\', 'f']
  else if c = '\n' then ['\\', 'n']
  else if c = '\r' then ['\\', 'r']
  else if c = '\t' then ['\\', 't']
  else if c.toNat < 0x20 then
    ['\\', 'u', '0', '0', hexDigit (c.toNat / 16), hexDigit (c.toNat % 16)]
  else [c]

def quoted (text : String) : List Char :=
  '\"' :: (text.toList.flatMap escape ++ ['\"'])

/-- What stands between the parts of arrays and objects: a break before every item and before the
closing bracket, by nesting level, and the separator after a key. -/
structure Style where
  lineBreak : Nat → List Char
  colon : List Char

/-- Everything on one line, without blanks. -/
def Style.compact : Style := ⟨fun _ => [], [':']⟩

/-- Every item on a line of its own, indented by two blanks a level. -/
def Style.pretty : Style := ⟨fun level => '\n' :: List.replicate (2 * level) ' ', [':', ' ']⟩

mutual

/-- The text of a value that stands at a nesting level. -/
def write (style : Style) (level : Nat) : Json → List Char
  | .null => ['n', 'u', 'l', 'l']
  | .bool true => ['t', 'r', 'u', 'e']
  | .bool false => ['f', 'a', 'l', 's', 'e']
  | .number n => n.text
  | .string text => quoted text
  | .array [] => ['[', ']']
  | .array (item :: items) =>
    '[' :: (style.lineBreak (level + 1) ++ (write style (level + 1) item ++
      writeItems style (level + 1) items)) ++ (style.lineBreak level ++ [']'])
  | .object [] => ['{', '}']
  | .object ((key, value) :: members) =>
    '{' :: (style.lineBreak (level + 1) ++ (quoted key ++ (style.colon ++
      (write style (level + 1) value ++ writeMembers style (level + 1) members)))) ++
      (style.lineBreak level ++ ['}'])

/-- The items after the first, each after a comma. -/
def writeItems (style : Style) (level : Nat) : List Json → List Char
  | [] => []
  | item :: items =>
    ',' :: (style.lineBreak level ++ (write style level item ++ writeItems style level items))

/-- The members after the first, each after a comma. -/
def writeMembers (style : Style) (level : Nat) : List (String × Json) → List Char
  | [] => []
  | (key, value) :: members =>
    ',' :: (style.lineBreak level ++ (quoted key ++ (style.colon ++
      (write style level value ++ writeMembers style level members))))

end

def text (style : Style) (value : Json) : String := String.ofList (write style 0 value)

def compact (value : Json) : String := text .compact value

def pretty (value : Json) : String := text .pretty value

end Orchestration.Json
