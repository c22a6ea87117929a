import Orchestration.Proofs.WaitGraph.Acyclic

/-!
The search for a cycle as a loop with a stack. No step of the loop recurses or looks at a bound; it
comes to an end all the same, with the answer of the recursive search.
-/

namespace Orchestration

namespace WaitGraph

/-- How far the search has got with a function that it has met. -/
inductive Mark where
  | inProgress
  | done
  deriving DecidableEq

/-- A search under way: where it has still to start, the marks that it has given, the path to the
function that is being explored, and the stack. The stack holds the functions of the path, the last
one first, each with the functions it waits for that were not looked at yet. -/
structure Search where
  starts : List FunctionId
  marks : Entries FunctionId Mark
  path : List FunctionId
  stack : List (FunctionId × List FunctionId)

namespace Search

def begin (g : WaitGraph) : Search := ⟨g.keys, [], [], []⟩

/-- One step: the search goes on, or it ends with an answer. -/
def step (g : WaitGraph) : Search → Search ⊕ Option (List FunctionId)
  | ⟨[], _, _, []⟩ => .inr none
  | ⟨start :: starts, marks, path, []⟩ =>
    if Entries.has start marks then .inl ⟨starts, marks, path, []⟩
    else
      .inl ⟨starts, Entries.insert start .inProgress marks, [start], [(start, g.successors start)]⟩
  | ⟨starts, marks, path, (id, []) :: below⟩ =>
    .inl ⟨starts, Entries.insert id .done marks, path.dropLast, below⟩
  | ⟨starts, marks, path, (id, next :: remaining) :: below⟩ =>
    match Entries.find? next marks with
    | some .inProgress => .inr (some (path.drop ((path.findIdx? (· = next)).getD 0)))
    | some .done => .inl ⟨starts, marks, path, (id, remaining) :: below⟩
    | none =>
      .inl ⟨starts, Entries.insert next .inProgress marks, path ++ [next],
        (next, g.successors next) :: (id, remaining) :: below⟩

/-- Step by step, the search comes to an end with the answer. -/
inductive Ends (g : WaitGraph) : Search → Option (List FunctionId) → Prop
  | answered {s : Search} {answer : Option (List FunctionId)} (h : s.step g = .inr answer) :
      Ends g s answer
  | continued {s t : Search} {answer : Option (List FunctionId)} (h : s.step g = .inl t)
      (hends : Ends g t answer) : Ends g s answer

variable {g : WaitGraph}

/-- A search ends in one way only. -/
theorem Ends.unique {s : Search} {answer other : Option (List FunctionId)} (h : Ends g s answer)
    (hother : Ends g s other) : answer = other := by
  induction h with
  | answered h =>
      cases hother with
      | answered h' => exact Sum.inr.inj (h.symm.trans h')
      | continued h' _ => exact absurd (h.symm.trans h') (by simp)
  | continued h _ ih =>
      cases hother with
      | answered h' => exact absurd (h.symm.trans h') (by simp)
      | continued h' hends => exact ih (Sum.inl.inj (h.symm.trans h') ▸ hends)

/-- The marks say which functions are on the path and which ones are finished. -/
structure Marked (marks : Entries FunctionId Mark) (path finished : List FunctionId) : Prop where
  inProgress : ∀ id, Entries.find? id marks = some .inProgress ↔ id ∈ path
  done : ∀ id, Entries.find? id marks = some .done ↔ id ∈ finished

namespace Marked

variable {marks : Entries FunctionId Mark} {path finished : List FunctionId} {id : FunctionId}

theorem begin : Marked [] [] [] where
  inProgress := by simp [Entries.find?]
  done := by simp [Entries.find?]

theorem find?_eq_none (h : Marked marks path finished) (hpath : id ∉ path)
    (hfinished : id ∉ finished) : Entries.find? id marks = none := by
  cases hfind : Entries.find? id marks with
  | none => rfl
  | some mark =>
      cases mark with
      | inProgress => exact absurd ((h.inProgress id).mp hfind) hpath
      | done => exact absurd ((h.done id).mp hfind) hfinished

theorem enter (h : Marked marks path finished) (hfinished : id ∉ finished) :
    Marked (Entries.insert id .inProgress marks) (path ++ [id]) finished where
  inProgress := by
    intro other
    rw [Entries.find?_insert]
    split
    next heq => simp [heq]
    next hne => simp [h.inProgress other, Ne.symm hne]
  done := by
    intro other
    rw [Entries.find?_insert]
    split
    next heq => simp [← heq, hfinished]
    next => exact h.done other

theorem leave (h : Marked marks (path ++ [id]) finished) (hpath : id ∉ path) :
    Marked (Entries.insert id .done marks) path (id :: finished) where
  inProgress := by
    intro other
    rw [Entries.find?_insert]
    split
    next heq => simp [← heq, hpath]
    next hne => simp [h.inProgress other, Ne.symm hne]
  done := by
    intro other
    rw [Entries.find?_insert]
    split
    next heq => simp [heq]
    next hne => simp [h.done other, Ne.symm hne]

end Marked

def Leads (g : WaitGraph) : Search → Search → Prop :=
  Relation.ReflTransGen fun s t => s.step g = .inl t

theorem Leads.ends {s t : Search} {answer : Option (List FunctionId)} (h : Leads g s t)
    (hends : Ends g t answer) : Ends g s answer := by
  induction h using Relation.ReflTransGen.head_induction_on with
  | refl => exact hends
  | head hstep _ ih => exact .continued hstep ih

/-- From a state, the loop does what a recursive search does with the outcome: it ends with the
cycle that the recursion ends with, or it comes to a state from which to go on with the result. -/
def Follows (g : WaitGraph) (s : Search) (goesOn : List FunctionId → Search → Prop) :
    Except (List FunctionId) (List FunctionId) → Prop
  | .error cycle => Ends g s (some cycle)
  | .ok result => ∃ t, Leads g s t ∧ goesOn result t

section Follows

variable {s t : Search} {goesOn : List FunctionId → Search → Prop}
  {outcome : Except (List FunctionId) (List FunctionId)}

theorem Follows.after_leads (hleads : Leads g s t) (h : Follows g t goesOn outcome) :
    Follows g s goesOn outcome := by
  cases outcome with
  | error cycle => exact hleads.ends h
  | ok result =>
      obtain ⟨u, hu, hgoes⟩ := h
      exact ⟨u, hleads.trans hu, hgoes⟩

theorem Follows.after_step (hstep : s.step g = .inl t) (h : Follows g t goesOn outcome) :
    Follows g s goesOn outcome :=
  h.after_leads (.single hstep)

theorem Follows.bind {better : List FunctionId → Search → Prop}
    {next : List FunctionId → Except (List FunctionId) (List FunctionId)}
    (h : Follows g s goesOn outcome)
    (hnext : ∀ result t, outcome = .ok result → goesOn result t →
      Follows g t better (next result)) :
    Follows g s better (outcome >>= next) := by
  cases outcome with
  | error cycle => exact h
  | ok result =>
      obtain ⟨u, hu, hgoes⟩ := h
      exact (hnext result u rfl hgoes).after_leads hu

end Follows

/-- The loop cuts the path where the recursive search does. -/
theorem drop_findIdx? {path : List FunctionId} {next : FunctionId} (h : next ∈ path) :
    path.drop ((path.findIdx? (· = next)).getD 0) = path.dropWhile (· ≠ next) := by
  have hfound : path.findIdx? (· = next) = some (path.findIdx (· = next)) :=
    List.findIdx?_eq_some_of_exists ⟨next, h, by simp⟩
  rw [hfound, Option.getD_some, List.dropWhile_eq_drop_findIdx_not]
  simp

section Simulation

variable {path finished starts : List FunctionId} {id : FunctionId}
  {marks : Entries FunctionId Mark} {below : List (FunctionId × List FunctionId)}

/-- The loop is done with a function, which is still on the stack. -/
def Looked (starts path : List FunctionId) (id : FunctionId)
    (below : List (FunctionId × List FunctionId)) (result : List FunctionId) (t : Search) : Prop :=
  ∃ marks, Marked marks path result ∧ t = ⟨starts, marks, path, (id, []) :: below⟩

/-- The loop has left a function, the last one of the path. -/
def Left (starts path : List FunctionId) (below : List (FunctionId × List FunctionId))
    (result : List FunctionId) (t : Search) : Prop :=
  ∃ marks, Marked marks path.dropLast result ∧ t = ⟨starts, marks, path.dropLast, below⟩

/-- Where the loop follows the exploration of single functions, it follows that of all that a
function waits for. -/
theorem follows_remaining {fuel : Nat} (htrail : Trail g path id)
    (hfuel : g.bound ≤ fuel + (path.length + 1))
    (hexplore : ∀ next finished marks below, Trail g (path ++ [next]) next →
      Keeps g (path ++ [next]) finished → Marked marks (path ++ [next]) finished →
      Follows g ⟨starts, marks, path ++ [next], (next, g.successors next) :: below⟩
        (Left starts (path ++ [next]) below) (g.explore fuel (path ++ [next]) finished next))
    {remaining : List FunctionId} (hremaining : ∀ next ∈ remaining, g.Edge id next)
    (hkeeps : Keeps g path finished) (hmarked : Marked marks path finished) :
    Follows g ⟨starts, marks, path, (id, remaining) :: below⟩ (Looked starts path id below)
      (remaining.foldlM
        (fun finished next =>
          if next ∈ path then throw (path.dropWhile (· ≠ next))
          else if next ∈ finished then return finished
          else g.explore fuel (path ++ [next]) finished next)
        finished) := by
  induction remaining generalizing finished marks with
  | nil => exact ⟨_, .refl, marks, hmarked, rfl⟩
  | cons next remaining ih =>
      rw [List.forall_mem_cons] at hremaining
      rw [List.foldlM_cons]
      by_cases hpath : next ∈ path
      · -- The loop ends here, and so does the recursion.
        rw [if_pos hpath]
        refine Ends.answered ?_
        simp only [step, (hmarked.inProgress next).mpr hpath, drop_findIdx? hpath]
      · rw [if_neg hpath]
        by_cases hfinished : next ∈ finished
        · rw [if_pos hfinished]
          refine (ih hremaining.2 hkeeps hmarked).after_step ?_
          simp only [step, (hmarked.done next).mpr hfinished]
        · rw [if_neg hfinished]
          have htrail' := htrail.extend hremaining.1 hpath
          have hkeeps' : Keeps g (path ++ [next]) finished := by
            refine ⟨hkeeps.1, ?_⟩
            intro x hx
            rcases List.mem_append.mp hx with hx | hx
            · exact hkeeps.2 x hx
            · exact List.mem_singleton.mp hx ▸ hfinished
          have hmeets := explore_meets g fuel htrail' hkeeps'
            (by rw [List.length_append, List.length_singleton]; exact hfuel)
          have hfollows := hexplore next finished _ ((id, remaining) :: below) htrail' hkeeps'
            (hmarked.enter hfinished)
          refine (Follows.bind hfollows ?_).after_step ?_
          · rintro result t hok ⟨marks', hmarked', rfl⟩
            rw [hok] at hmeets
            obtain ⟨⟨hsettled, hapart⟩, -, -⟩ := hmeets
            rw [List.dropLast_concat] at hmarked' ⊢
            refine ih hremaining.2 ⟨hsettled, ?_⟩ hmarked'
            intro x hx
            exact hapart x (by simp [hx]) (fun h => hpath (h ▸ hx))
          · simp only [step, hmarked.find?_eq_none hpath hfinished]

/-- The loop follows the exploration of a function, and leaves it then. -/
theorem follows_explore (fuel : Nat) (htrail : Trail g path id) (hkeeps : Keeps g path finished)
    (hmarked : Marked marks path finished) (hfuel : g.bound ≤ fuel + path.length) :
    Follows g ⟨starts, marks, path, (id, g.successors id) :: below⟩ (Left starts path below)
      (g.explore fuel path finished id) := by
  induction fuel generalizing path finished id marks below with
  | zero =>
      have := htrail.length_lt_bound
      omega
  | succ fuel ih =>
      rw [explore]
      refine Follows.bind (follows_remaining htrail (by omega) ?_ (fun _ hnext => hnext) hkeeps
        hmarked) ?_
      · intro next finished marks below htrail' hkeeps' hmarked'
        exact ih htrail' hkeeps' hmarked' (by simp only [List.length_append]; simp; omega)
      · rintro result _ - ⟨marks', hmarked', rfl⟩
        obtain ⟨before, rfl⟩ : ∃ before, path = before ++ [id] :=
          List.getLast?_eq_some_iff.mp htrail.last
        have hnew : id ∉ before := fun hmem =>
          (List.nodup_append.mp htrail.nodup).2.2 id hmem id (List.mem_singleton_self id) rfl
        refine ⟨⟨starts, Entries.insert id .done marks', _, below⟩,
          .single (by simp only [step]), _, ?_, rfl⟩
        rw [List.dropLast_concat]
        exact hmarked'.leave hnew

/-- The loop follows the search from one start after the other. -/
theorem follows_starts {starts : List FunctionId} (hstarts : starts ⊆ g.keys)
    (hsettled : Settled g finished) (hmarked : Marked marks [] finished) :
    Follows g ⟨starts, marks, [], []⟩ (fun _ t => t.step g = .inr none)
      (starts.foldlM
        (fun finished start =>
          if start ∈ finished then return finished
          else g.explore g.bound [start] finished start)
        finished) := by
  induction starts generalizing finished marks with
  | nil => exact ⟨_, .refl, rfl⟩
  | cons start starts ih =>
      rw [List.cons_subset] at hstarts
      rw [List.foldlM_cons]
      by_cases hfinished : start ∈ finished
      · rw [if_pos hfinished]
        have hhas : Entries.has start marks = true := by
          rw [Entries.has, (hmarked.done start).mpr hfinished]
          rfl
        refine (ih hstarts.2 hsettled hmarked).after_step ?_
        simp only [step, hhas, ↓reduceIte]
      · rw [if_neg hfinished]
        have htrail := Trail.start hstarts.1
        have hkeeps : Keeps g [start] finished := ⟨hsettled, by simpa using hfinished⟩
        have hmeets := explore_meets g g.bound htrail hkeeps (Nat.le_add_right _ _)
        have hfollows : Follows g ⟨starts, _, [start], [(start, g.successors start)]⟩ _ _ :=
          follows_explore g.bound htrail hkeeps (hmarked.enter hfinished) (Nat.le_add_right _ _)
        refine (Follows.bind hfollows ?_).after_step ?_
        · rintro result t hok ⟨marks', hmarked', rfl⟩
          rw [hok] at hmeets
          exact ih hstarts.2 hmeets.1.1 hmarked'
        · have hhas : Entries.has start marks = false := by
            rw [Entries.has, hmarked.find?_eq_none List.not_mem_nil hfinished]
            rfl
          simp only [step, hhas]
          rfl

end Simulation

/-- The loop comes to an end, with the answer of the recursive search and no other. -/
theorem ends_iff {answer : Option (List FunctionId)} :
    Ends g (begin g) answer ↔ answer = g.cycle? := by
  have hends : Ends g (begin g) g.cycle? := by
    have hfollows : Follows g (begin g) _ g.exploreAll :=
      follows_starts (List.Subset.refl g.keys) trivial Marked.begin
    rw [cycle?]
    cases hall : g.exploreAll with
    | error cycle =>
        rw [hall] at hfollows
        exact hfollows
    | ok result =>
        rw [hall] at hfollows
        obtain ⟨last, hleads, hlast⟩ := hfollows
        exact hleads.ends (.answered hlast)
  constructor
  · exact fun h => h.unique hends
  · rintro rfl
    exact hends

end Search

end WaitGraph

/-- The search for a cycle comes to an end, whatever the functions wait for. It finds nothing
exactly when no function waits for itself through others. What it finds is a walk over listed
functions, each waiting for the next one and the last for the first. -/
theorem findCycle_decides {functions : List ScenarioFunction}
    {replaced : Option (FunctionId × WaitClause)}
    (hnodup : (functions.map ScenarioFunction.id).Nodup) :
    (∀ answer, WaitGraph.Search.Ends (WaitGraph.ofFunctions functions replaced)
        (.begin (WaitGraph.ofFunctions functions replaced)) answer ↔
      answer = findCycle functions replaced) ∧
    (findCycle functions replaced = none ↔ Acyclic (WaitsFor functions replaced)) ∧
    ∀ path, findCycle functions replaced = some path →
      path ⊆ functions.map ScenarioFunction.id ∧ ClosedWalk (WaitsFor functions replaced) path := by
  refine ⟨fun answer => WaitGraph.Search.ends_iff, findCycle_eq_none_iff_acyclic hnodup, ?_⟩
  intro path hpath
  have hwalk := closedWalk_of_findCycle hnodup hpath
  refine ⟨?_, hwalk⟩
  intro id hid
  obtain ⟨next, -, f, hf, rfl, -⟩ := hwalk.exists_next hid
  exact List.mem_map_of_mem hf

section Sample

/-- Functions out of order. One waits inside of another one, and one for a function that is not
listed. -/
def waiting : List ScenarioFunction :=
  [⟨2, .stopJobs [], { finished := [.own (.root 0) 1] }⟩,
    ⟨0, .stopJobs [], { launched := [.nested (.root 0) 2 5] }⟩,
    ⟨1, .stopJobs [], { finished := [.own (.root 0) 9] }⟩]

/-- As they stand the functions wait in no circle, but they do once the last clause is replaced. -/
theorem waiting_decided :
    (waiting.map ScenarioFunction.id).Nodup ∧ Acyclic (WaitsFor waiting none) ∧
      ClosedWalk (WaitsFor waiting (some (1, { launched := [.nested (.root 0) 0 3] })))
        [0, 2, 1] := by
  have hnodup : (waiting.map ScenarioFunction.id).Nodup := by decide
  have hnone : findCycle waiting none = none := by decide
  have hsome : findCycle waiting (some (1, { launched := [.nested (.root 0) 0 3] })) =
      some [0, 2, 1] := by decide
  exact ⟨hnodup, (findCycle_decides hnodup).2.1.mp hnone,
    ((findCycle_decides hnodup).2.2 _ hsome).2⟩

end Sample

end Orchestration
