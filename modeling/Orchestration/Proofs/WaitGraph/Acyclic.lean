import Mathlib.Logic.Relation
import Orchestration.Proofs.WaitGraph

namespace Orchestration

/-- The function `a` is listed and waits for the function `b`, or for a function inside of it, by
its own clause or by the one that is to replace it. -/
def WaitsFor (functions : List ScenarioFunction) (replaced : Option (FunctionId × WaitClause))
    (a b : FunctionId) : Prop :=
  ∃ f ∈ functions, f.id = a ∧ ∃ r ∈ (WaitGraph.clauseOf replaced f).references, r.outerId = b

/-- No function leads back to itself, in however many steps. -/
def Acyclic (R : FunctionId → FunctionId → Prop) : Prop := ∀ id, ¬ Relation.TransGen R id id

section ClosedWalk

variable {R S : FunctionId → FunctionId → Prop} {path : List FunctionId}

/-- Every member of a closed walk leads to a member. -/
theorem ClosedWalk.exists_next (h : ClosedWalk R path) {id : FunctionId} (hid : id ∈ path) :
    ∃ next ∈ path, R id next := by
  obtain ⟨before, after, rfl⟩ := List.append_of_mem hid
  cases after with
  | nil =>
      obtain ⟨first, hfirst⟩ := Option.ne_none_iff_exists'.mp
        (mt List.head?_eq_none_iff.mp h.ne_nil)
      exact ⟨first, List.mem_of_head? hfirst, h.closed first hfirst id (by simp)⟩
  | cons next after =>
      have hrel : R id next := (List.isChain_append_cons_cons.mp h.chain).2.1
      exact ⟨next, by simp, hrel⟩

theorem ClosedWalk.imp (h : ClosedWalk R path)
    (himp : ∀ a ∈ path, ∀ b, R a b → S a b) : ClosedWalk S path where
  ne_nil := h.ne_nil
  nodup := h.nodup
  chain := h.chain.imp_of_mem_imp fun a b ha _ => himp a ha b
  closed := fun first hfirst last hlast =>
    himp last (List.mem_of_getLast? hlast) first (h.closed first hfirst last hlast)

theorem Acyclic.not_closedWalk (hacyclic : Acyclic R) : ¬ ClosedWalk R path := by
  intro h
  obtain ⟨first, rest, rfl⟩ := List.exists_cons_of_ne_nil h.ne_nil
  have hreach := List.relationReflTransGen_of_exists_isChain_cons rest h.chain rfl
  have hback := h.closed first rfl _ (List.getLast?_eq_getLast_of_ne_nil (by simp))
  exact hacyclic _ (Relation.TransGen.head' hback hreach)

theorem acyclic_of_rank {rank : FunctionId → Nat} (hrank : ∀ a b, R a b → rank b < rank a) :
    Acyclic R := by
  have hdescends : ∀ a b, Relation.TransGen R a b → rank b < rank a := by
    intro a b h
    induction h with
    | single hab => exact hrank _ _ hab
    | tail _ hbc ih => exact Nat.lt_trans (hrank _ _ hbc) ih
  exact fun id h => Nat.lt_irrefl _ (hdescends id id h)

end ClosedWalk

section FindCycle

variable {functions : List ScenarioFunction} {replaced : Option (FunctionId × WaitClause)}

theorem WaitGraph.edge_ofFunctions (hnodup : (functions.map ScenarioFunction.id).Nodup) :
    (WaitGraph.ofFunctions functions replaced).Edge = WaitsFor functions replaced := by
  funext a b
  exact propext (WaitGraph.edge_ofFunctions_iff hnodup)

/-- What the search reports is a closed walk. -/
theorem closedWalk_of_findCycle (hnodup : (functions.map ScenarioFunction.id).Nodup)
    {path : List FunctionId} (h : findCycle functions replaced = some path) :
    ClosedWalk (WaitsFor functions replaced) path :=
  WaitGraph.edge_ofFunctions hnodup ▸ WaitGraph.closedWalk_of_cycle?_eq_some h

theorem acyclic_iff_exists_rank (hnodup : (functions.map ScenarioFunction.id).Nodup) :
    Acyclic (WaitsFor functions replaced) ↔ ∃ rank : FunctionId → Nat, ∀ f ∈ functions,
      ∀ r ∈ (WaitGraph.clauseOf replaced f).references, rank r.outerId < rank f.id := by
  constructor
  · intro hacyclic
    rw [← findCycle_eq_none_iff hnodup]
    cases hcycle : findCycle functions replaced with
    | none => rfl
    | some path => exact absurd (closedWalk_of_findCycle hnodup hcycle) hacyclic.not_closedWalk
  · rintro ⟨rank, hrank⟩
    apply acyclic_of_rank
    rintro _ _ ⟨f, hf, rfl, r, hr, rfl⟩
    exact hrank f hf r hr

/-- Nothing is reported exactly when there is no cycle. -/
theorem findCycle_eq_none_iff_acyclic (hnodup : (functions.map ScenarioFunction.id).Nodup) :
    findCycle functions replaced = none ↔ Acyclic (WaitsFor functions replaced) := by
  rw [findCycle_eq_none_iff hnodup, acyclic_iff_exists_rank hnodup]

end FindCycle

end Orchestration
