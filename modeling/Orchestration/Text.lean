namespace Orchestration.Text

/-- The characters with the Unicode property White_Space. -/
def isBlank (c : Char) : Bool :=
  let n := c.toNat
  (0x09 ≤ n && n ≤ 0x0D) || n == 0x20 || n == 0x85 || n == 0xA0 || n == 0x1680 ||
    (0x2000 ≤ n && n ≤ 0x200A) || n == 0x2028 || n == 0x2029 || n == 0x202F || n == 0x205F ||
    n == 0x3000

def trim (text : List Char) : List Char :=
  ((text.dropWhile isBlank).reverse.dropWhile isBlank).reverse

/-- The maximal runs of characters that are not blank. -/
def words (text : List Char) : List (List Char) :=
  (text.splitOnP isBlank).filter (!·.isEmpty)

/-- A carriage return that ends a line belongs to the line's end. -/
def dropReturn (line : List Char) : List Char :=
  if line.getLast? = some '\r' then line.dropLast else line

/-- Of the pieces between line feeds, each but the last was ended by one; the last is a line only
if something stands in it. -/
def closeLines : List (List Char) → List (List Char)
  | [] => []
  | [last] => if last.isEmpty then [] else [last]
  | line :: next :: rest => dropReturn line :: closeLines (next :: rest)

/-- A line ends at a line feed, or at a carriage return and line feed; the last one need not end. -/
def lines (text : List Char) : List (List Char) :=
  closeLines (text.splitOnP (· == '\n'))

/-- An optional plus sign, then one or more decimal digits, of a value up to `limit`. -/
def readNumeral (limit : Nat) (text : List Char) : Option Nat :=
  let digits := match text with
    | '+' :: rest => rest
    | _ => text
  if !digits.isEmpty && digits.all Char.isDigit then
    let value := Nat.ofDigitChars 10 digits 0
    if value ≤ limit then some value else none
  else
    none

def max16 : Nat := 0xFFFF

def max32 : Nat := 0xFFFFFFFF

def max64 : Nat := 0xFFFFFFFFFFFFFFFF

end Orchestration.Text
