/-!
Finite doubles as exact data. The magnitudes of the finite doubles, in ascending order, are
numbered from zero; a double is a sign and such a number, its rank. All arithmetic is on naturals
and rounds once, to the nearest double, a tie going to the even rank.
-/

namespace Orchestration

/-- How many doubles lie from one power of two up to the next: `2 ^ 52`. -/
def Double.binade : Nat := 0x10000000000000

/-- How many magnitudes a finite double can have. -/
def Double.ranks : Nat := 2047 * Double.binade

/-- A finite double: its sign and the rank of its magnitude. -/
structure Double where
  negative : Bool
  rank : Nat
  rank_lt : rank < Double.ranks
  deriving DecidableEq

namespace Double

/-- Every magnitude is a whole number of these parts of one, and the least positive one is one
part. -/
def partsOfOne : Nat := Nat.pow 2 1074

/-- The magnitude of a rank, in parts: the rank itself in the first two binades, and with every
binade after them the distance between neighbours doubles. -/
def parts (rank : Nat) : Nat :=
  if rank < binade then rank
  else (binade + rank % binade) * Nat.pow 2 (rank / binade - 1)

/-- The quotient rounded to the nearest natural, a tie to the even one. -/
def roundDiv (numerator denominator : Nat) : Nat :=
  let quotient := numerator / denominator
  let twice := 2 * (numerator % denominator)
  if twice < denominator then quotient
  else if twice = denominator then quotient + quotient % 2
  else quotient + 1

/-- The rank of the magnitude nearest to a ratio. From `ranks` on, the ratio is too large for a
finite double. -/
def nearest (numerator denominator : Nat) : Nat :=
  let scaled := numerator * partsOfOne
  let exponent := (scaled / denominator).log2 - 52
  exponent * binade + roundDiv scaled (denominator * Nat.pow 2 exponent)

/-- The double of a sign and a rank, when the rank is that of a finite one. -/
def ofRank? (negative : Bool) (rank : Nat) : Option Double :=
  if h : rank < ranks then some ⟨negative, rank, h⟩ else none

/-- The double nearest to a natural; the greatest one for naturals beyond all of them. -/
def ofNat (n : Nat) : Double :=
  ⟨false, min (nearest n 1) (ranks - 1), by simp only [ranks, binade]; omega⟩

def neg (x : Double) : Double := { x with negative := !x.negative }

/-- Whether two doubles are the same number: the two zeros are. -/
def same (x y : Double) : Bool :=
  x.rank == y.rank && (x.rank == 0 || x.negative == y.negative)

def product (rank other : Nat) : Nat :=
  nearest (parts rank * parts other) (partsOfOne * partsOfOne)

def quotient (rank other : Nat) : Nat :=
  nearest (parts rank) (parts other)

def tenPower (exponent : Nat) : Nat := nearest (Nat.pow 10 exponent) 1

end Double

end Orchestration
