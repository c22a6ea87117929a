import Orchestration.Proofs.Scenario.WellFormed

namespace Orchestration.Scenario

variable {s t : Scenario} {h : Handle} {wait : WaitClause}

/-- The handle is of a function of the scenario. -/
def Owns (s : Scenario) (h : Handle) : Prop :=
  h.scope = s.scope ∧ h.id ∈ s.functions.map ScenarioFunction.id

theorem Searchable.owns_iff (hs : s.Searchable) :
    s.Owns h ↔ h.scope = s.scope ∧ ∃ f, s.function? h.id = some f := by
  simp only [Owns, List.mem_map, function?_eq_some_iff hs.here]

/-- A function that waits for itself closes the shortest cycle. -/
theorem closedWalk_self (howns : s.Owns h) {r : Reference} (hr : r ∈ wait.references)
    (hself : r.outerId = h.id) :
    ClosedWalk (WaitsFor s.functions (some (h.id, wait))) [h.id] := by
  obtain ⟨f, hf, hid⟩ := List.mem_map.mp howns.2
  have hedge : WaitsFor s.functions (some (h.id, wait)) h.id h.id := by
    refine ⟨f, hf, hid, r, ?_, hself⟩
    simpa [WaitGraph.clauseOf, hid] using hr
  refine ⟨List.cons_ne_nil _ _, List.nodup_singleton _, List.isChain_singleton _, ?_⟩
  intro first hfirst last hlast
  obtain rfl : h.id = first := by simpa using hfirst
  obtain rfl : h.id = last := by simpa using hlast
  exact hedge

/-- Without the function whose clause is replaced, there is no cycle: the other clauses are stored
ones. -/
theorem Coherent.mem_of_closedWalk (hs : s.Coherent) {id : FunctionId} {path : List FunctionId}
    (hwalk : ClosedWalk (WaitsFor s.functions (some (id, wait))) path) : id ∈ path := by
  by_contra hnot
  have hacyclic : Acyclic (WaitsFor s.functions none) :=
    (acyclic_iff_exists_rank hs.ids_nodup).mpr hs.ranked
  refine hacyclic.not_closedWalk (hwalk.imp ?_)
  rintro a ha b ⟨f, hf, rfl, r, hr, hb⟩
  have hne : id ≠ f.id := fun heq => hnot (heq ▸ ha)
  refine ⟨f, hf, rfl, r, ?_, hb⟩
  simpa [WaitGraph.clauseOf, hne] using hr

theorem checkRewired_of_resolves {id : FunctionId} {r : Reference} (hr : s.Resolves r) :
    s.checkRewired id r = if r.outerId = id then throw (.cycle s.name id [id]) else pure () := by
  obtain ⟨f, hf⟩ := hr
  rw [checkRewired, resolve_eq_ok_iff.mpr hf]
  rfl

/-- Where handle and clause name what is there, a refusal reports a cycle. -/
theorem Searchable.closedWalk_of_setWait (hs : s.Searchable) (howns : s.Owns h)
    (hwait : ∀ r ∈ wait.references, ∃ f, s.PointsAt r f) {failure : Failure}
    (hrefused : s.setWait h wait = .error failure) :
    ∃ path, failure = .cycle s.name h.id path ∧
      ClosedWalk (WaitsFor s.functions (some (h.id, wait))) path := by
  have hhandle : s.checkHandle h = .ok () := checkHandle_eq_ok_iff.mpr (hs.owns_iff.mp howns)
  obtain hfailed | ⟨_, -, hrest⟩ := Outcome.bind_eq_error_iff.mp hrefused
  · cases hhandle.symm.trans hfailed
  obtain hfailed | ⟨_, -, hsearched⟩ := Outcome.bind_eq_error_iff.mp hrest
  · -- A reference of the clause is refused, so it leads back to the function itself.
    obtain ⟨r, hr, hcheck⟩ := Outcome.exists_of_forM_eq_error hfailed
    rw [checkRewired_of_resolves (hs.resolves_iff.mpr (hwait r hr))] at hcheck
    split at hcheck
    next hself =>
      cases hcheck
      exact ⟨[h.id], rfl, closedWalk_self howns hr hself⟩
    next => cases hcheck
  · cases hcycle : findCycle s.functions (some (h.id, wait)) with
    | none =>
        rw [hcycle] at hsearched
        cases hsearched
    | some path =>
        rw [hcycle] at hsearched
        cases hsearched
        exact ⟨path, rfl, closedWalk_of_findCycle hs.ids_nodup hcycle⟩

theorem Searchable.exists_setWait_iff (hs : s.Searchable) :
    (∃ t, s.setWait h wait = .ok t) ↔ s.Owns h ∧
      (∀ r ∈ wait.references, ∃ f, s.PointsAt r f) ∧
      Acyclic (WaitsFor s.functions (some (h.id, wait))) := by
  constructor
  · rintro ⟨t, hset⟩
    obtain ⟨howns, hwait, hcycle, -⟩ := setWait_eq_ok_iff.mp hset
    refine ⟨hs.owns_iff.mpr howns, ?_, (findCycle_eq_none_iff_acyclic hs.ids_nodup).mp hcycle⟩
    exact fun r hr => hs.resolves_iff.mp (hwait r hr).1
  · rintro ⟨howns, hwait, hacyclic⟩
    cases hset : s.setWait h wait with
    | ok t => exact ⟨t, rfl⟩
    | error failure =>
        obtain ⟨path, -, hwalk⟩ := hs.closedWalk_of_setWait howns hwait hset
        exact absurd hwalk hacyclic.not_closedWalk

/-- What replacing a clause makes of a scenario: one function has the new clause, and all else is
as before. -/
theorem Coherent.eq_of_setWait (hs : s.Coherent) (hset : s.setWait h wait = .ok t) :
    ∃ before f after, s.functions = before ++ f :: after ∧ f.id = h.id ∧
      t = { s with functions := before ++ { f with wait := wait } :: after } := by
  obtain ⟨⟨-, f, hf⟩, -, -, rfl⟩ := setWait_eq_ok_iff.mp hset
  obtain ⟨hmem, hid⟩ := mem_of_function? hf
  obtain ⟨before, after, hsplit⟩ := List.append_of_mem hmem
  refine ⟨before, f, after, hsplit, hid, ?_⟩
  have hnodup := hs.ids_nodup
  rw [hsplit, List.map_append, List.map_cons, List.nodup_middle, List.nodup_cons,
    List.mem_append, not_or] at hnodup
  have hsame : ∀ others : List ScenarioFunction, f.id ∉ others.map ScenarioFunction.id →
      others.map (fun g => if g.id = h.id then { g with wait := wait } else g) = others := by
    intro others hnot
    have hkeep : ∀ g ∈ others, (if g.id = h.id then { g with wait := wait } else g) = g :=
      fun g hg => if_neg fun heq => hnot (List.mem_map.mpr ⟨g, hg, heq.trans hid.symm⟩)
    exact (List.map_congr_left hkeep).trans (List.map_id' others)
  rw [rewired, hsplit, List.map_append, List.map_cons, hsame before hnodup.1.1,
    hsame after hnodup.1.2, if_pos hid]

/-- Replacing a clause succeeds exactly when the handle is the scenario's own, everything that the
clause names is there, and no cycle is closed. It changes nothing but the clause. A refusal changes
nothing at all, and where handle and clause name what is there it reports a cycle through the
function. -/
theorem Reachable.setWait_decides (hs : s.Reachable) (h : Handle) (wait : WaitClause) :
    ((∃ t, s.setWait h wait = .ok t) ↔ s.Owns h ∧
      (∀ r ∈ wait.references, ∃ f, s.PointsAt r f) ∧
      Acyclic (WaitsFor s.functions (some (h.id, wait)))) ∧
    (∀ t, s.setWait h wait = .ok t →
      ∃ before f after, s.functions = before ++ f :: after ∧ f.id = h.id ∧
        t = { s with functions := before ++ { f with wait := wait } :: after }) ∧
    ∀ failure, s.setWait h wait = .error failure →
      s.after (.setWait h wait) = s ∧
      (s.Owns h → (∀ r ∈ wait.references, ∃ f, s.PointsAt r f) →
        ∃ path, failure = .cycle s.name h.id path ∧ h.id ∈ path ∧
          ClosedWalk (WaitsFor s.functions (some (h.id, wait))) path) := by
  have heverywhere := hs.everywhere_intact.coherent
  have hcoherent := heverywhere.here
  have hsearchable := heverywhere.searchable
  refine ⟨hsearchable.exists_setWait_iff, fun t => hcoherent.eq_of_setWait, ?_⟩
  intro failure hrefused
  constructor
  · simp only [after, Call.perform, hrefused]
    rfl
  · intro howns hwait
    obtain ⟨path, hfailure, hwalk⟩ := hsearchable.closedWalk_of_setWait howns hwait hrefused
    exact ⟨path, hfailure, hcoherent.mem_of_closedWalk hwalk, hwalk⟩

/-- In the manager the worker waits for a function that was added later. That function may not wait
for the worker's job in turn; the function between them may be rewired. -/
theorem manager_setWait_decides :
    (manager.Owns ⟨.root 1, 2, .stopJobs⟩ ∧
      manager.after (.setWait ⟨.root 1, 2, .stopJobs⟩ { launched := [.nested (.root 1) 0 0] }) =
        manager ∧
      ∃ path, manager.setWait ⟨.root 1, 2, .stopJobs⟩ { launched := [.nested (.root 1) 0 0] } =
          .error (.cycle "manager" 2 path) ∧ 2 ∈ path ∧
        ClosedWalk (WaitsFor manager.functions
          (some (2, { launched := [.nested (.root 1) 0 0] }))) path) ∧
    Acyclic (WaitsFor manager.functions (some (1, { finished := [.own (.root 1) 2] }))) := by
  have howns : manager.Owns ⟨.root 1, 2, .stopJobs⟩ := ⟨rfl, by decide⟩
  have hresolves : manager.Resolves (.nested (.root 1) 0 0) := ⟨_, resolve_eq_ok_iff.mp rfl⟩
  have hwait : ∀ r ∈ ({ launched := [.nested (.root 1) 0 0] } : WaitClause).references,
      ∃ f, manager.PointsAt r f := by
    intro r hr
    obtain rfl := List.mem_singleton.mp hr
    exact manager_reachable.everywhere_intact.coherent.searchable.resolves_iff.mp hresolves
  have hrefused : manager.setWait ⟨.root 1, 2, .stopJobs⟩
      { launched := [.nested (.root 1) 0 0] } = .error (.cycle "manager" 2 [0, 2]) := rfl
  have hdone : ∃ t, manager.setWait ⟨.root 1, 1, .startJob⟩
      { finished := [.own (.root 1) 2] } = .ok t := ⟨_, rfl⟩
  obtain ⟨-, -, hfailures⟩ := manager_reachable.setWait_decides ⟨.root 1, 2, .stopJobs⟩
    { launched := [.nested (.root 1) 0 0] }
  obtain ⟨hsame, hcycle⟩ := hfailures _ hrefused
  obtain ⟨path, hfailure, hmem, hwalk⟩ := hcycle howns hwait
  refine ⟨⟨howns, hsame, path, hrefused.trans (congrArg _ hfailure), hmem, hwalk⟩, ?_⟩
  exact ((manager_reachable.setWait_decides _ _).1.mp hdone).2.2

end Orchestration.Scenario
