import Mathlib.Data.List.Chain
import Orchestration.Proofs.Entries
import Orchestration.Scenario.WaitGraph

namespace Orchestration

/-- A walk without repetitions in which each function leads to the next one, and the last one to
the first. -/
structure ClosedWalk (R : FunctionId → FunctionId → Prop) (path : List FunctionId) : Prop where
  ne_nil : path ≠ []
  nodup : path.Nodup
  chain : path.IsChain R
  closed : ∀ first ∈ path.head?, ∀ last ∈ path.getLast?, R last first

namespace WaitGraph

/-- The function `a` waits for the function `b`. -/
def Edge (g : WaitGraph) (a b : FunctionId) : Prop := b ∈ g.successors a

/-- Functions in an order in which each one waits only for functions that stand after it. -/
def Settled (g : WaitGraph) : List FunctionId → Prop
  | [] => True
  | id :: rest => id ∉ rest ∧ (∀ next ∈ g.successors id, next ∈ rest) ∧ Settled g rest

def nodes (g : WaitGraph) : List FunctionId := g.keys ++ g.flatMap Prod.snd

theorem bound_eq (g : WaitGraph) : g.bound = g.nodes.length + 1 := by
  simp [bound, nodes, Entries.keys]

theorem find?_of_edge {g : WaitGraph} {a b : FunctionId} (h : g.Edge a b) :
    ∃ targets, Entries.find? a g = some targets ∧ b ∈ targets := by
  unfold Edge successors at h
  cases hfind : Entries.find? a g with
  | none => simp [hfind] at h
  | some targets => exact ⟨targets, rfl, by simpa [hfind] using h⟩

theorem mem_keys_of_edge {g : WaitGraph} {a b : FunctionId} (h : g.Edge a b) : a ∈ g.keys := by
  obtain ⟨targets, hfind, -⟩ := find?_of_edge h
  exact Entries.find?_isSome_iff.mp (by simp [hfind])

theorem mem_nodes_of_edge {g : WaitGraph} {a b : FunctionId} (h : g.Edge a b) : b ∈ g.nodes := by
  obtain ⟨targets, hfind, hb⟩ := find?_of_edge h
  apply List.mem_append_right
  exact List.mem_flatMap.mpr ⟨(a, targets), Entries.mem_of_find? hfind, hb⟩

/-- The path of the search: it leads to the function that is being explored. -/
structure Trail (g : WaitGraph) (path : List FunctionId) (id : FunctionId) : Prop where
  nodup : path.Nodup
  chain : path.IsChain g.Edge
  last : path.getLast? = some id
  listed : ∀ x ∈ path, x ∈ g.nodes

namespace Trail

theorem start {g : WaitGraph} {id : FunctionId} (h : id ∈ g.keys) : Trail g [id] id where
  nodup := by simp
  chain := by simp
  last := rfl
  listed := by
    intro x hx
    rw [List.mem_singleton.mp hx]
    exact List.mem_append_left _ h

theorem mem {g : WaitGraph} {path : List FunctionId} {id : FunctionId} (h : Trail g path id) :
    id ∈ path :=
  List.mem_of_getLast? h.last

theorem extend {g : WaitGraph} {path : List FunctionId} {id next : FunctionId}
    (h : Trail g path id) (hedge : g.Edge id next) (hnew : next ∉ path) :
    Trail g (path ++ [next]) next where
  nodup := by
    rw [List.nodup_append]
    refine ⟨h.nodup, by simp, ?_⟩
    intro x hx y hy heq
    rw [List.mem_singleton.mp hy] at heq
    exact hnew (heq ▸ hx)
  chain := by
    rw [List.isChain_append]
    refine ⟨h.chain, by simp, ?_⟩
    intro x hx y hy
    rw [h.last] at hx
    simp only [Option.mem_def, Option.some.injEq, List.head?_cons] at hx hy
    exact hx ▸ hy ▸ hedge
  last := by simp
  listed := by
    intro x hx
    rcases List.mem_append.mp hx with hx | hx
    · exact h.listed x hx
    · rw [List.mem_singleton.mp hx]
      exact mem_nodes_of_edge hedge

/-- A path visits each function at most once, so it is shorter than the bound. -/
theorem length_lt_bound {g : WaitGraph} {path : List FunctionId} {id : FunctionId}
    (h : Trail g path id) : path.length < g.bound := by
  rw [bound_eq]
  exact Nat.lt_succ_of_le (h.nodup.length_le_of_subset fun x hx => h.listed x hx)

/-- Where the explored function waits for one on the path, the path closes there. -/
theorem closedWalk {g : WaitGraph} {path : List FunctionId} {id next : FunctionId}
    (h : Trail g path id) (hedge : g.Edge id next) (hmem : next ∈ path) :
    ClosedWalk g.Edge (path.dropWhile (· ≠ next)) := by
  obtain ⟨before, rest, rfl⟩ := List.append_of_mem hmem
  have hbefore : ∀ x ∈ before, decide (x ≠ next) = true := by
    intro x hx
    have hne := (List.nodup_append.mp h.nodup).2.2 x hx next (by simp)
    simpa using hne
  have hdrop : (before ++ next :: rest).dropWhile (· ≠ next) = next :: rest := by
    rw [List.dropWhile_append_of_pos hbefore]
    simp
  rw [hdrop]
  refine ⟨by simp, (List.nodup_append.mp h.nodup).2.1, ?_, ?_⟩
  · exact h.chain.suffix (List.suffix_append _ _)
  · intro first hfirst last hlast
    have hid : last = id := by
      have hgetLast := h.last
      rw [List.getLast?_append_of_ne_nil _ (by simp)] at hgetLast
      exact Option.some.inj (hlast.symm.trans hgetLast)
    have hnext : next = first := by simpa using hfirst
    rw [hid, ← hnext]
    exact hedge

end Trail

/-- A search ends as wanted: with a good result, or with a cycle. -/
def Meets (g : WaitGraph) (good : List FunctionId → Prop) :
    Except (List FunctionId) (List FunctionId) → Prop
  | .ok result => good result
  | .error path => ClosedWalk g.Edge path

theorem Meets.imp {g : WaitGraph} {good better : List FunctionId → Prop}
    {outcome : Except (List FunctionId) (List FunctionId)} (h : g.Meets good outcome)
    (himp : ∀ result, good result → better result) : g.Meets better outcome := by
  cases outcome with
  | error path => exact h
  | ok result => exact himp result h

theorem Meets.bind {g : WaitGraph} {good better : List FunctionId → Prop}
    {outcome : Except (List FunctionId) (List FunctionId)}
    {next : List FunctionId → Except (List FunctionId) (List FunctionId)}
    (h : g.Meets good outcome) (hnext : ∀ result, good result → g.Meets better (next result)) :
    g.Meets better (outcome >>= next) := by
  cases outcome with
  | error path => exact h
  | ok result => exact hnext result h

/-- Steps that each keep what is settled, and settle one function more, settle all of them. -/
theorem meets_foldlM {g : WaitGraph} (keep : List FunctionId → Prop)
    {step : List FunctionId → FunctionId → Except (List FunctionId) (List FunctionId)}
    {ids : List FunctionId}
    (hstep : ∀ id ∈ ids, ∀ finished, keep finished →
      g.Meets (fun result => keep result ∧ finished ⊆ result ∧ id ∈ result) (step finished id))
    {finished : List FunctionId} (hkeep : keep finished) :
    g.Meets (fun result => keep result ∧ finished ⊆ result ∧ ∀ id ∈ ids, id ∈ result)
      (ids.foldlM step finished) := by
  induction ids generalizing finished with
  | nil => exact ⟨hkeep, List.Subset.refl _, by simp⟩
  | cons id ids ih =>
      rw [List.foldlM_cons]
      apply (hstep id (by simp) finished hkeep).bind
      rintro grown ⟨hgrown, hsub, hid⟩
      apply (ih (fun other hother => hstep other (by simp [hother])) hgrown).imp
      rintro result ⟨hresult, hsub', hids⟩
      refine ⟨hresult, List.Subset.trans hsub hsub', ?_⟩
      intro other hother
      rcases List.mem_cons.mp hother with rfl | hother
      · exact hsub' hid
      · exact hids other hother

/-- What is settled stays away from the functions of the path, which are still being explored. -/
def Keeps (g : WaitGraph) (path finished : List FunctionId) : Prop :=
  Settled g finished ∧ ∀ x ∈ path, x ∉ finished

/-- Exploring a function settles it, with everything that it waits for. The fuel lasts, because no
path is longer than the graph has functions. -/
theorem explore_meets (g : WaitGraph) (fuel : Nat) {path finished : List FunctionId}
    {id : FunctionId} (htrail : Trail g path id) (hkeeps : Keeps g path finished)
    (hfuel : g.bound ≤ fuel + path.length) :
    g.Meets (fun result => (Settled g result ∧ ∀ x ∈ path, x ≠ id → x ∉ result) ∧
      finished ⊆ result ∧ id ∈ result) (g.explore fuel path finished id) := by
  induction fuel generalizing path finished id with
  | zero =>
      have := htrail.length_lt_bound
      omega
  | succ fuel ih =>
      rw [explore]
      refine Meets.bind (meets_foldlM (Keeps g path) ?_ hkeeps) ?_
      · intro next hedge grown hgrown
        split
        next hmem => exact htrail.closedWalk hedge hmem
        next hnew =>
          split
          next hdone => exact ⟨hgrown, List.Subset.refl _, hdone⟩
          next hopen =>
            have hlength : g.bound ≤ fuel + (path ++ [next]).length := by
              simp only [List.length_append, List.length_singleton]
              omega
            have hkeeps' : Keeps g (path ++ [next]) grown := by
              refine ⟨hgrown.1, ?_⟩
              intro x hx
              rcases List.mem_append.mp hx with hx | hx
              · exact hgrown.2 x hx
              · rw [List.mem_singleton.mp hx]
                exact hopen
            apply (ih (htrail.extend hedge hnew) hkeeps' hlength).imp
            rintro result ⟨⟨hsettled, hapart⟩, hsub, hnext⟩
            refine ⟨⟨hsettled, ?_⟩, hsub, hnext⟩
            intro x hx
            exact hapart x (by simp [hx]) (fun h => hnew (h ▸ hx))
      · rintro result ⟨⟨hsettled, hapart⟩, hsub, hall⟩
        refine ⟨⟨⟨hapart id htrail.mem, hall, hsettled⟩, ?_⟩, ?_, by simp⟩
        · intro x hx hne hmem
          rcases List.mem_cons.mp hmem with rfl | hmem
          · exact hne rfl
          · exact hapart x hx hmem
        · exact List.subset_cons_of_subset _ hsub

theorem exploreAll_meets (g : WaitGraph) :
    g.Meets (fun result => Settled g result ∧ ∀ id ∈ g.keys, id ∈ result) g.exploreAll := by
  unfold exploreAll
  refine (meets_foldlM (Settled g) ?_ (show Settled g [] from trivial)).imp ?_
  · intro start hstart finished hsettled
    split
    next hdone => exact ⟨hsettled, List.Subset.refl _, hdone⟩
    next hopen =>
      apply (explore_meets g g.bound (Trail.start hstart)
        ⟨hsettled, by simpa using hopen⟩ (Nat.le_add_right _ _)).imp
      rintro result ⟨⟨hresult, -⟩, hsub, hmem⟩
      exact ⟨hresult, hsub, hmem⟩
  · rintro result ⟨hsettled, -, hkeys⟩
    exact ⟨hsettled, hkeys⟩

theorem closedWalk_of_cycle?_eq_some {g : WaitGraph} {path : List FunctionId}
    (h : g.cycle? = some path) : ClosedWalk g.Edge path := by
  have hmeets := exploreAll_meets g
  unfold cycle? at h
  cases hall : g.exploreAll with
  | ok result => simp [hall] at h
  | error found =>
      rw [hall] at hmeets h
      exact Option.some.inj h ▸ hmeets

/-- Functions settled later wait for functions settled earlier. -/
theorem Settled.idxOf_lt {g : WaitGraph} {order : List FunctionId} (h : Settled g order)
    {a b : FunctionId} (ha : a ∈ order) (hedge : g.Edge a b) :
    order.idxOf a < order.idxOf b ∧ b ∈ order := by
  induction order with
  | nil => simp at ha
  | cons id rest ih =>
      obtain ⟨hid, hnexts, hrest⟩ := h
      have hne_of_mem : ∀ x ∈ rest, id ≠ x := fun x hx heq => hid (heq ▸ hx)
      rcases List.mem_cons.mp ha with rfl | ha
      · have hb : b ∈ rest := hnexts b hedge
        rw [List.idxOf_cons_self, List.idxOf_cons_ne _ (hne_of_mem b hb)]
        exact ⟨Nat.succ_pos _, List.mem_cons_of_mem _ hb⟩
      · obtain ⟨hlt, hb⟩ := ih hrest ha
        rw [List.idxOf_cons_ne _ (hne_of_mem a ha), List.idxOf_cons_ne _ (hne_of_mem b hb)]
        exact ⟨Nat.succ_lt_succ hlt, List.mem_cons_of_mem _ hb⟩

/-- A graph is ranked when each function waits only for functions of a lower rank. -/
def Ranked (g : WaitGraph) (rank : FunctionId → Nat) : Prop :=
  ∀ a b, g.Edge a b → rank b < rank a

theorem exists_ranked_of_cycle?_eq_none {g : WaitGraph} (h : g.cycle? = none) :
    ∃ rank, g.Ranked rank := by
  have hmeets := exploreAll_meets g
  unfold cycle? at h
  cases hall : g.exploreAll with
  | error path => simp [hall] at h
  | ok order =>
      rw [hall] at hmeets
      obtain ⟨hsettled, hkeys⟩ := hmeets
      refine ⟨fun id => order.length - order.idxOf id, ?_⟩
      intro a b hedge
      obtain ⟨hlt, hb⟩ := hsettled.idxOf_lt (hkeys a (mem_keys_of_edge hedge)) hedge
      have hlength := List.idxOf_lt_length_of_mem hb
      exact Nat.sub_lt_sub_left (Nat.lt_trans hlt hlength) hlt

theorem Ranked.not_closedWalk {g : WaitGraph} {rank : FunctionId → Nat} (h : g.Ranked rank)
    (path : List FunctionId) : ¬ ClosedWalk g.Edge path := by
  rintro ⟨hne, -, hchain, hclosed⟩
  obtain ⟨first, rest, rfl⟩ := List.exists_cons_of_ne_nil hne
  have hdescends : (first :: rest).Pairwise fun a b => rank b < rank a := by
    rw [← List.isChain_iff_pairwise]
    exact hchain.imp h
  have hle : ∀ x ∈ first :: rest, rank x ≤ rank first := by
    intro x hx
    rcases List.mem_cons.mp hx with rfl | hx
    · exact Nat.le_refl _
    · exact Nat.le_of_lt (List.rel_of_pairwise_cons hdescends hx)
  have hlast := List.getLast_mem (l := first :: rest) (by simp)
  have hlt := h _ _ (hclosed first rfl _ (List.getLast?_eq_getLast_of_ne_nil (by simp)))
  exact Nat.not_lt.mpr (hle _ hlast) hlt

theorem cycle?_eq_none_iff {g : WaitGraph} : g.cycle? = none ↔ ∃ rank, g.Ranked rank := by
  constructor
  · exact exists_ranked_of_cycle?_eq_none
  · rintro ⟨rank, hrank⟩
    cases hcycle : g.cycle? with
    | none => rfl
    | some path => exact absurd (closedWalk_of_cycle?_eq_some hcycle) (hrank.not_closedWalk path)

theorem mem_targets {w : WaitClause} {id : FunctionId} :
    id ∈ targets w ↔ ∃ r ∈ w.references, r.outerId = id := by
  rw [targets, Entries.mem_distinct, List.mem_map]

theorem edge_ofFunctions_iff {functions : List ScenarioFunction}
    {replaced : Option (FunctionId × WaitClause)}
    (hnodup : (functions.map ScenarioFunction.id).Nodup) {a b : FunctionId} :
    (ofFunctions functions replaced).Edge a b ↔
      ∃ f ∈ functions, f.id = a ∧ ∃ r ∈ (clauseOf replaced f).references, r.outerId = b := by
  have hkeys : (Entries.keys (functions.map fun f =>
      (f.id, targets (clauseOf replaced f)))).Nodup := by
    simpa [Entries.keys, Function.comp_def] using hnodup
  constructor
  · intro hedge
    obtain ⟨found, hfind, hb⟩ := find?_of_edge hedge
    rw [ofFunctions, Entries.find?_ofList] at hfind
    obtain ⟨f, hf, heq⟩ := List.mem_map.mp
      (List.mem_reverse.mp (Entries.mem_of_find? hfind))
    cases heq
    exact ⟨f, hf, rfl, mem_targets.mp hb⟩
  · rintro ⟨f, hf, rfl, hr⟩
    have hfind : Entries.find? f.id (ofFunctions functions replaced) =
        some (targets (clauseOf replaced f)) :=
      Entries.find?_ofList_of_nodup hkeys (List.mem_map.mpr ⟨f, hf, rfl⟩)
    simpa [Edge, successors, hfind] using mem_targets.mpr hr

end WaitGraph

/-- No cycle is found exactly when the functions can be ranked such that each waits only for
functions of a lower rank. -/
theorem findCycle_eq_none_iff {functions : List ScenarioFunction}
    {replaced : Option (FunctionId × WaitClause)}
    (hnodup : (functions.map ScenarioFunction.id).Nodup) :
    findCycle functions replaced = none ↔ ∃ rank : FunctionId → Nat, ∀ f ∈ functions,
      ∀ r ∈ (WaitGraph.clauseOf replaced f).references, rank r.outerId < rank f.id := by
  rw [findCycle, WaitGraph.cycle?_eq_none_iff]
  constructor
  · rintro ⟨rank, hrank⟩
    refine ⟨rank, ?_⟩
    intro f hf r hr
    exact hrank _ _ ((WaitGraph.edge_ofFunctions_iff hnodup).mpr ⟨f, hf, rfl, r, hr, rfl⟩)
  · rintro ⟨rank, hrank⟩
    refine ⟨rank, ?_⟩
    intro a b hedge
    obtain ⟨f, hf, rfl, r, hr, rfl⟩ := (WaitGraph.edge_ofFunctions_iff hnodup).mp hedge
    exact hrank f hf r hr

end Orchestration
