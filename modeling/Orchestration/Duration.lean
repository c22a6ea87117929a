import Orchestration.Text
import Orchestration.Decimal.Shortest

namespace Orchestration

structure Duration where
  nanoseconds : Nat
  deriving DecidableEq

namespace Duration

def second : Nat := 1000000000

def millisecond : Nat := 1000000

def microsecond : Nat := 1000

def zero : Duration := ⟨0⟩

def ofSeconds (seconds : Nat) : Duration := ⟨seconds * second⟩

def ofMilliseconds (milliseconds : Nat) : Duration := ⟨milliseconds * millisecond⟩

def ofParts (seconds nanoseconds : Nat) : Duration := ⟨seconds * second + nanoseconds⟩

def wholeSeconds (d : Duration) : Nat := d.nanoseconds / second

/-- The nanoseconds beyond the whole seconds. -/
def subseconds (d : Duration) : Nat := d.nanoseconds % second

/-- The sum, as long as its whole seconds fit in 64 bits. -/
def add? (d e : Duration) : Option Duration :=
  let sum : Duration := ⟨d.nanoseconds + e.nanoseconds⟩
  if sum.wholeSeconds ≤ Text.max64 then some sum else none

/-- The time in seconds: the whole seconds and the rest are rounded each, and so is their sum. -/
def toSeconds (d : Duration) : Double :=
  let whole := Double.ofNat d.wholeSeconds
  let rest := Double.quotient (Double.ofNat d.subseconds).rank (Double.ofNat second).rank
  let sum := Double.nearest (Double.parts whole.rank + Double.parts rest) Double.partsOfOne
  ⟨false, min sum (Double.ranks - 1), by simp only [Double.ranks, Double.binade]; omega⟩

/-- A whole part, and a fraction of the given number of digits if it is not zero. -/
def withFraction (whole fraction width : Nat) : String :=
  let digits := Nat.toDigits 10 fraction
  let padded := List.replicate (width - digits.length) '0' ++ digits
  let shown := Decimal.dropZeros padded
  toString whole ++ (if shown.isEmpty then "" else "." ++ String.ofList shown)

/-- The time in the largest unit of which it holds at least one. -/
def text (d : Duration) : String :=
  let n := d.nanoseconds
  if second ≤ n then withFraction (n / second) (n % second) 9 ++ "s"
  else if millisecond ≤ n then withFraction (n / millisecond) (n % millisecond) 6 ++ "ms"
  else if microsecond ≤ n then withFraction (n / microsecond) (n % microsecond) 3 ++ "µs"
  else toString n ++ "ns"

end Duration

end Orchestration
