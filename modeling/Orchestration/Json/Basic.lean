import Orchestration.Entries
import Orchestration.Decimal.Double

/-!
JSON values. An object lists its members in the order in which they are written; the objects of
free values keep theirs in ascending key order.
-/

namespace Orchestration

/-- A number keeps whether it was given as an integer. Integers of free values lie between
`-2 ^ 63` and `2 ^ 64 - 1`. -/
inductive Json.Number where
  | integer (value : Int)
  | real (value : Double)
  deriving DecidableEq

inductive Json where
  | null
  | bool (value : Bool)
  | number (value : Json.Number)
  | string (text : String)
  | array (items : List Json)
  | object (members : List (String × Json))
  deriving Inhabited

namespace Json

def ofNat (n : Nat) : Json := .number (.integer n)

/-- An object with its members in ascending key order. -/
def ofEntries (entries : Entries String Json) : Json := .object entries

/-- Whether two numbers are equal: an integer is never equal to a real, and the two zeros among
the reals are equal. -/
def Number.same : Number → Number → Bool
  | .integer m, .integer n => m == n
  | .real x, .real y => x.same y
  | _, _ => false

mutual

/-- Whether two values are equal, numbers compared as numbers. -/
def same : Json → Json → Bool
  | .null, .null => true
  | .bool b, .bool c => b == c
  | .number m, .number n => m.same n
  | .string s, .string t => s == t
  | .array xs, .array ys => sameItems xs ys
  | .object ms, .object ns => sameMembers ms ns
  | _, _ => false

def sameItems : List Json → List Json → Bool
  | [], [] => true
  | x :: xs, y :: ys => x.same y && sameItems xs ys
  | _, _ => false

def sameMembers : List (String × Json) → List (String × Json) → Bool
  | [], [] => true
  | (k, x) :: ms, (l, y) :: ns => k == l && x.same y && sameMembers ms ns
  | _, _ => false

end

end Json

end Orchestration
