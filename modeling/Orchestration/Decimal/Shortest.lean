import Orchestration.Decimal.Double

namespace Orchestration

/-- The number `digits * 10 ^ exponent`. -/
structure Decimal where
  digits : Nat
  exponent : Int
  deriving DecidableEq

namespace Decimal

def nearest (d : Decimal) : Nat :=
  if 0 ≤ d.exponent then Double.nearest (d.digits * Nat.pow 10 d.exponent.toNat) 1
  else Double.nearest d.digits (Nat.pow 10 (-d.exponent).toNat)

/-- The power of ten of a positive magnitude's first digit. -/
def leadingExponent (rank : Nat) : Int :=
  let parts := Double.parts rank
  if Double.partsOfOne ≤ parts then
    ((Nat.toDigits 10 (parts / Double.partsOfOne)).length : Int) - 1
  else
    -((Nat.toDigits 10 ((Double.partsOfOne - 1) / parts)).length : Int)

/-- Of the two decimals with `count` digits that enclose a positive magnitude, the one that rounds
to it, and the nearer if both do, an exact tie going to the even one. -/
def withDigits? (rank count : Nat) : Option Decimal :=
  let exponent := leadingExponent rank - count + 1
  let numerator := Double.parts rank * Nat.pow 10 (-exponent).toNat
  let denominator := Double.partsOfOne * Nat.pow 10 exponent.toNat
  let below : Decimal := ⟨numerator / denominator, exponent⟩
  let above : Decimal := ⟨numerator / denominator + 1, exponent⟩
  let nearer : Decimal := ⟨Double.roundDiv numerator denominator, exponent⟩
  match below.nearest == rank, above.nearest == rank with
  | true, true => some nearer
  | true, false => some below
  | false, true => some above
  | false, false => none

/-- A magnitude written out to its last digit. -/
def exact (rank : Nat) : Decimal := ⟨Double.parts rank * Nat.pow 5 1074, -1074⟩

/-- The decimal with the fewest digits that rounds to a positive magnitude. Seventeen digits are
always enough. -/
def shortest (rank : Nat) : Decimal :=
  ((List.range' 1 17).findSome? (withDigits? rank)).getD (exact rank)

/-- Where a number is written plainly, and where with a power of ten: plainly from the power
`least` of its first digit on and below the power `bound`. -/
structure Layout where
  least : Int
  bound : Int

def dropZeros (digits : List Char) : List Char :=
  (digits.reverse.dropWhile (· == '0')).reverse

/-- Digits with a point after the first `point` of them, filled up with zeros on either side, and
at least one digit after the point. -/
def plain (digits : List Char) (point : Int) : List Char :=
  if point ≤ 0 then '0' :: '.' :: (List.replicate (-point).toNat '0' ++ digits)
  else
    let whole := digits.take point.toNat
    let fraction := digits.drop point.toNat
    whole ++ List.replicate (point.toNat - whole.length) '0' ++
      '.' :: (if fraction.isEmpty then ['0'] else fraction)

/-- The first digit, the others after a point, and the power of ten with its sign. -/
def powered (digits : List Char) (exponent : Int) : List Char :=
  digits.take 1 ++ (if digits.length ≤ 1 then [] else '.' :: digits.drop 1) ++
    'e' :: (if exponent < 0 then '-' else '+') :: Nat.toDigits 10 exponent.natAbs

/-- The text of a positive decimal. -/
def Layout.write (layout : Layout) (d : Decimal) : List Char :=
  let written := Nat.toDigits 10 d.digits
  let point := written.length + d.exponent
  let digits := dropZeros written
  if layout.least < point ∧ point ≤ layout.bound then plain digits point
  else powered digits (point - 1)

/-- The text of a double: its sign, then its shortest decimal. -/
def Layout.text (layout : Layout) (x : Double) : List Char :=
  (if x.negative then ['-'] else []) ++
    (if x.rank = 0 then ['0', '.', '0'] else layout.write (shortest x.rank))

end Decimal

end Orchestration
