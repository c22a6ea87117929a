import Orchestration.Parameter.Table

namespace Orchestration

/-- A value, in the terms of one scenario. The entries of a map ascend by key. -/
inductive ParameterValue where
  | literal (value : Json)
  | argument (ref : ArgumentRef)
  | constant (ref : ConstantRef)
  | function (ref : Reference)
  | list (items : List ParameterValue)
  | map (entries : List (String × ParameterValue))

inductive ValueReference where
  | argument (ref : ArgumentRef)
  | constant (ref : ConstantRef)
  | function (ref : Reference)
  deriving DecidableEq

def ValueReference.isFunction : ValueReference → Bool
  | .function _ => true
  | _ => false

namespace ParameterValue

def text (s : String) : ParameterValue := .literal (.string s)

def natural (n : Nat) : ParameterValue := .literal (.ofNat n)

def bool (b : Bool) : ParameterValue := .literal (.bool b)

def ofPairs (pairs : List (String × ParameterValue)) : ParameterValue :=
  .map (Entries.ofList pairs)

mutual

/-- All references in a value, in the order in which they are met. -/
def references : ParameterValue → List ValueReference
  | .literal _ => []
  | .argument ref => [.argument ref]
  | .constant ref => [.constant ref]
  | .function ref => [.function ref]
  | .list items => itemReferences items
  | .map entries => entryReferences entries

def itemReferences : List ParameterValue → List ValueReference
  | [] => []
  | item :: items => item.references ++ itemReferences items

def entryReferences : List (String × ParameterValue) → List ValueReference
  | [] => []
  | (_, value) :: entries => value.references ++ entryReferences entries

end

mutual

/-- The value with the references of one scope carried over to another. -/
def rescope (source target : Scope) : ParameterValue → ParameterValue
  | .literal value => .literal value
  | .argument ref => .argument (ref.rescope source target)
  | .constant ref => .constant (ref.rescope source target)
  | .function ref => .function (ref.rescope source target)
  | .list items => .list (rescopeItems source target items)
  | .map entries => .map (rescopeEntries source target entries)

def rescopeItems (source target : Scope) : List ParameterValue → List ParameterValue
  | [] => []
  | item :: items => item.rescope source target :: rescopeItems source target items

def rescopeEntries (source target : Scope) :
    List (String × ParameterValue) → List (String × ParameterValue)
  | [] => []
  | (key, value) :: entries =>
    (key, value.rescope source target) :: rescopeEntries source target entries

end

def get? (key : String) : ParameterValue → Option ParameterValue
  | .map entries => Entries.find? key entries
  | _ => none

mutual

/-- Whether two values are equal, numbers compared as numbers. -/
def same : ParameterValue → ParameterValue → Bool
  | .literal v, .literal w => v.same w
  | .argument a, .argument b => a == b
  | .constant a, .constant b => a == b
  | .function a, .function b => a == b
  | .list vs, .list ws => sameItems vs ws
  | .map vs, .map ws => sameEntries vs ws
  | _, _ => false

def sameItems : List ParameterValue → List ParameterValue → Bool
  | [], [] => true
  | v :: vs, w :: ws => v.same w && sameItems vs ws
  | _, _ => false

def sameEntries : List (String × ParameterValue) → List (String × ParameterValue) → Bool
  | [], [] => true
  | (k, v) :: vs, (l, w) :: ws => k == l && v.same w && sameEntries vs ws
  | _, _ => false

end

end ParameterValue

end Orchestration
