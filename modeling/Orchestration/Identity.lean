namespace Orchestration

/-- The identity of one scenario. Scopes form trees: a scope of its own is a root, and the scenario
that function `n` of a scenario starts, when both are made together, has the child scope `n`. -/
structure Scope where
  path : List Nat
  deriving DecidableEq

namespace Scope

def root (number : Nat) : Scope := ⟨[number]⟩

def child (scope : Scope) (id : Nat) : Scope := ⟨id :: scope.path⟩

end Scope

abbrev FunctionId := Nat

namespace FunctionId

def label (id : FunctionId) : String := s!"FunctionId: {id}"

def labels (ids : List FunctionId) : String :=
  "[" ++ ", ".intercalate (ids.map label) ++ "]"

end FunctionId

/-- Hands out the ids 0, 1, 2 and so on, none of them twice. -/
structure IdSupply where
  next : FunctionId := 0
  deriving DecidableEq

namespace IdSupply

/-- The next id, and the supply without it. -/
def issue (supply : IdSupply) : FunctionId × IdSupply := (supply.next, ⟨supply.next + 1⟩)

/-- The next `count` ids, and the supply without them. -/
def issueMany : Nat → IdSupply → List FunctionId × IdSupply
  | 0, supply => ([], supply)
  | count + 1, supply =>
    let (id, supply) := supply.issue
    let (ids, supply) := issueMany count supply
    (id :: ids, supply)

end IdSupply

end Orchestration
