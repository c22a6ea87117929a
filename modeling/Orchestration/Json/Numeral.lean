import Orchestration.Text
import Orchestration.Json.Basic

/-!
What a written JSON number denotes. An integer that fits its range stays one. Any other number is a
double: its digits are gathered into a significand as long as that fits in 64 bits, the
significand is rounded, and the result is multiplied or divided by a rounded power of ten.
-/

namespace Orchestration.Json

/-- A number as written: its sign, the digits before and after the point, and the exponent. -/
structure Numeral where
  negative : Bool
  whole : List Char
  fraction : Option (List Char)
  exponent : Option (Bool × List Char)

namespace Numeral

/-- Takes digits into a significand while it fits in 64 bits; also how many were left over. -/
def gather (significand : Nat) : List Char → Nat × Nat
  | [] => (significand, 0)
  | digit :: digits =>
    let next := significand * 10 + (digit.toNat - 48)
    if next ≤ Text.max64 then gather next digits else (significand, digits.length + 1)

/-- The greatest power of ten that is a finite double. -/
def maxPower : Nat := 308

/-- A magnitude divided by a power of ten, in steps of the greatest power. -/
def shrink (rank exponent : Nat) : Nat :=
  if exponent ≤ maxPower then Double.quotient rank (Double.tenPower exponent)
  else if rank = 0 then 0
  else shrink (Double.quotient rank (Double.tenPower maxPower)) (exponent - maxPower)
termination_by exponent
decreasing_by simp only [maxPower] at *; omega

/-- A significand times a power of ten; nothing when that is too large for a double. -/
def scale? (negative : Bool) (significand : Nat) (exponent : Int) : Option Double :=
  let rank := Double.nearest significand 1
  if exponent < 0 then Double.ofRank? negative (shrink rank exponent.natAbs)
  else if rank = 0 then Double.ofRank? negative 0
  else if exponent.natAbs ≤ maxPower then
    Double.ofRank? negative (Double.product rank (Double.tenPower exponent.natAbs))
  else none

/-- The value of an integer that was gathered whole. -/
def integer (negative : Bool) (significand : Nat) : Option Number :=
  if !negative then some (.integer significand)
  else if 0 < significand ∧ significand ≤ 0x8000000000000000 then
    some (.integer (-(significand : Int)))
  else (scale? true significand 0).map .real

def signed (exponent : Bool × List Char) : Int :=
  let magnitude := Nat.ofDigitChars 10 exponent.2 0
  if exponent.1 then -(magnitude : Int) else magnitude

/-- The number that a numeral denotes; nothing when it is too large for a double. -/
def value? (n : Numeral) : Option Number :=
  let (whole, wholeLeft) := gather 0 n.whole
  match n.fraction, n.exponent with
  | none, none =>
    if wholeLeft = 0 then integer n.negative whole
    else (scale? n.negative whole wholeLeft).map .real
  | fraction, exponent =>
    let fraction := fraction.getD []
    let (significand, left) := gather whole fraction
    let shift : Int := wholeLeft - (fraction.length - left : Nat)
    let power := (exponent.map signed).getD 0
    (scale? n.negative significand (shift + power)).map .real

end Numeral

end Orchestration.Json
