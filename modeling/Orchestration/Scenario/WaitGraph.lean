import Orchestration.Scenario.Basic

/-!
The graph of which functions wait for which, and the search for a cycle in it. A reference into an
embedded scenario counts as one to its host.
-/

namespace Orchestration

/-- For each function, the functions that it waits for; both ascend. -/
abbrev WaitGraph := Entries FunctionId (List FunctionId)

namespace WaitGraph

def targets (w : WaitClause) : List FunctionId :=
  Entries.distinct (w.references.map Reference.outerId)

/-- The clause of a function, or the one that is to replace it. -/
def clauseOf (replaced : Option (FunctionId × WaitClause)) (f : ScenarioFunction) : WaitClause :=
  match replaced with
  | some (id, wait) => if id = f.id then wait else f.wait
  | none => f.wait

/-- The graph of some functions, the clause of one of them replaced if wanted. -/
def ofFunctions (functions : List ScenarioFunction)
    (replaced : Option (FunctionId × WaitClause)) : WaitGraph :=
  Entries.ofList (functions.map fun f => (f.id, targets (clauseOf replaced f)))

def successors (g : WaitGraph) (id : FunctionId) : List FunctionId :=
  (Entries.find? id g).getD []

/-- More than the number of functions that the graph mentions. -/
def bound (g : WaitGraph) : Nat :=
  g.length + (g.flatMap Prod.snd).length + 1

/-- Explores everything that the last function of a path waits for. `path` leads from a start to
that function and holds no function twice; `finished` lists functions from which no cycle can be
reached, and the result lists one more. The search ends with the first cycle that it meets. `fuel`
bounds the length that the path can still grow by. -/
def explore (g : WaitGraph) : (fuel : Nat) → (path finished : List FunctionId) →
    (id : FunctionId) → Except (List FunctionId) (List FunctionId)
  | 0, _, finished, _ => return finished
  | fuel + 1, path, finished, id => do
    let finished ← (g.successors id).foldlM
      (fun finished next =>
        if next ∈ path then throw (path.dropWhile (· ≠ next))
        else if next ∈ finished then return finished
        else g.explore fuel (path ++ [next]) finished next)
      finished
    return id :: finished

def exploreAll (g : WaitGraph) : Except (List FunctionId) (List FunctionId) :=
  g.keys.foldlM
    (fun finished start =>
      if start ∈ finished then return finished
      else g.explore g.bound [start] finished start)
    []

/-- A cycle of the graph, each function of it waiting for the next and the last for the first. -/
def cycle? (g : WaitGraph) : Option (List FunctionId) :=
  match g.exploreAll with
  | .ok _ => none
  | .error path => some path

end WaitGraph

/-- A cycle among functions that wait for each other. -/
def findCycle (functions : List ScenarioFunction)
    (replaced : Option (FunctionId × WaitClause)) : Option (List FunctionId) :=
  (WaitGraph.ofFunctions functions replaced).cycle?

end Orchestration
