import Orchestration.Proofs.Scenario.Execution

namespace Orchestration

/-- Whenever the event happens, the first one has happened before. -/
def Follows (trace : List Occurrence) (event first : Occurrence) : Prop :=
  ∀ before after, trace = before ++ event :: after → first ∈ before

namespace Follows

variable {trace : List Occurrence} {event middle first : Occurrence}

theorem trans (h : Follows trace event middle) (hmiddle : Follows trace middle first) :
    Follows trace event first := by
  rintro before after rfl
  obtain ⟨front, back, rfl⟩ := List.append_of_mem (h before after rfl)
  exact List.mem_append_left _ (hmiddle front (back ++ event :: after) (by simp))

theorem nil : Follows [] event first := by
  intro before after h
  simp at h

theorem cons_iff {e : Occurrence} :
    Follows (e :: trace) event first ↔ e ≠ event ∧ (e = first ∨ Follows trace event first) := by
  constructor
  · intro h
    constructor
    · rintro rfl
      simpa using h [] trace rfl
    · rw [or_iff_not_imp_left]
      rintro hne before after rfl
      exact (List.mem_cons.mp (h (e :: before) after rfl)).resolve_left (Ne.symm hne)
  · rintro ⟨hne, h⟩ before after hsplit
    cases before with
    | nil => exact absurd (List.cons.inj hsplit).1 hne
    | cons b before =>
        obtain ⟨rfl, rfl⟩ := List.cons.inj hsplit
        rcases h with rfl | h
        · exact List.mem_cons_self
        · exact List.mem_cons_of_mem _ (h before after rfl)

instance decidable (event first : Occurrence) : (trace : List Occurrence) →
    Decidable (Follows trace event first)
  | [] => isTrue nil
  | _ :: trace =>
    have := decidable event first trace
    decidable_of_iff _ cons_iff.symm

end Follows

def Target.occurrence (stage : Stage) (target : Target) : Occurrence :=
  ⟨stage, target.hosts [], target.innerId⟩

/-- The trace respects the clauses of the scenario's own functions: each of them is launched only
after what it waits for, and finishes only after it was launched. -/
structure Scenario.RespectedBy (s : Scenario) (trace : List Occurrence) : Prop where
  runs : ∀ f ∈ s.functions, Follows trace ⟨.finished, [], f.id⟩ ⟨.launched, [], f.id⟩
  waitFinished : ∀ f ∈ s.functions, ∀ r ∈ f.wait.finished,
    Follows trace ⟨.launched, [], f.id⟩ (r.target.occurrence .finished)
  waitLaunched : ∀ f ∈ s.functions, ∀ r ∈ f.wait.launched,
    Follows trace ⟨.launched, [], f.id⟩ (r.target.occurrence .launched)

theorem Scenario.respectedBy_iff {s : Scenario} {trace : List Occurrence} :
    s.RespectedBy trace ↔ ∀ f ∈ s.functions,
      Follows trace ⟨.finished, [], f.id⟩ ⟨.launched, [], f.id⟩ ∧
      (∀ r ∈ f.wait.finished, Follows trace ⟨.launched, [], f.id⟩ (r.target.occurrence .finished)) ∧
      ∀ r ∈ f.wait.launched, Follows trace ⟨.launched, [], f.id⟩ (r.target.occurrence .launched) :=
  ⟨fun ⟨hruns, hfinished, hlaunched⟩ f hf => ⟨hruns f hf, hfinished f hf, hlaunched f hf⟩,
    fun h => ⟨fun f hf => (h f hf).1, fun f hf => (h f hf).2.1, fun f hf => (h f hf).2.2⟩⟩

instance (s : Scenario) (trace : List Occurrence) : Decidable (s.RespectedBy trace) :=
  decidable_of_iff _ Scenario.respectedBy_iff.symm

theorem Before.follows {trace : List Occurrence} {first event : Occurrence} (hnodup : trace.Nodup)
    (h : Before trace first event) : Follows trace event first := by
  rintro before after rfl
  obtain ⟨left, right, hsplit, hleft, hright⟩ := List.sublist_append_iff.mp h
  rw [List.nodup_middle, List.nodup_cons, List.mem_append, not_or] at hnodup
  -- The event stands in the middle only, so its part of the sublist does not lie on the left.
  rcases left with _ | ⟨a, left⟩
  · rw [List.nil_append] at hsplit
    subst hsplit
    rcases List.sublist_cons_iff.mp hright with hafter | ⟨rest, hrest, hafter⟩
    · exact absurd (hafter.subset (by simp)) hnodup.1.2
    · obtain ⟨rfl, rfl⟩ := List.cons.inj hrest
      exact absurd (List.singleton_sublist.mp hafter) hnodup.1.2
  · obtain ⟨rfl, -⟩ := List.cons.inj hsplit
    exact hleft.subset List.mem_cons_self

/-- What a sequential execution of a whole scenario does respects the clauses of its own
functions. -/
theorem Execution.respects {s : Scenario} {trace : List Occurrence}
    (h : Execution s.Located trace) : s.RespectedBy trace where
  runs f hf := (h.runs [] f.task (.here hf)).follows h.nodup
  waitFinished f hf r hr :=
    (h.waitFinished [] f.task (.here hf) r.target (List.mem_map_of_mem hr)).follows h.nodup
  waitLaunched f hf r hr :=
    (h.waitLaunched [] f.task (.here hf) r.target (List.mem_map_of_mem hr)).follows h.nodup

/-- Whatever stands in the clause of a function was launched before that function. -/
theorem Scenario.RespectedBy.follows_launched {s : Scenario} {trace : List Occurrence}
    (htrace : s.RespectedBy trace) {f g : ScenarioFunction} (hf : f ∈ s.functions)
    (hg : g ∈ s.functions) {scope : Scope} (hwait : .own scope g.id ∈ f.wait.references) :
    Follows trace ⟨.launched, [], f.id⟩ ⟨.launched, [], g.id⟩ := by
  rcases List.mem_append.mp hwait with hwait | hwait
  · have hfinished : Follows trace ⟨.launched, [], f.id⟩ ⟨.finished, [], g.id⟩ :=
      htrace.waitFinished f hf _ hwait
    exact hfinished.trans (htrace.runs g hg)
  · exact htrace.waitLaunched f hf _ hwait

end Orchestration
