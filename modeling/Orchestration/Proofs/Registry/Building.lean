import Orchestration.NetworkDelay
import Orchestration.Proofs.Registry.Calls
import Orchestration.Traffic.Mix

namespace Orchestration

/-- The second scenario is the first one without its registries, and the first one is built by
calls. -/
structure Scenario.Counterpart (s t : Scenario) : Prop where
  reachable : s.Reachable
  eq : t = s.unchecked

structure Draft.Counterpart (d e : Draft) : Prop where
  scenario : d.scenario.Counterpart e.scenario
  journal : e.journal = d.journal

theorem Scenario.counterpart_create (scope : Scope) (name description : String)
    (registry : JobRegistry) :
    (create scope name description registry).Counterpart (create scope name description) :=
  ⟨.created scope name description registry, (unchecked_create _ _ _ _).symm⟩

namespace Build

open Scenario

variable {α β : Type}

/-- The second result is that of the same step without registries: a registry refused a job, or both
ended with the same failure, or both yielded a value. -/
inductive Filtered (V : α → α → Prop) :
    Except Failure α × Draft → Except Failure α × Draft → Prop
  | yielded {a b : α} {d e : Draft} (value : V a b) (draft : d.Counterpart e) :
      Filtered V (.ok a, d) (.ok b, e)
  | failed (failure : Failure) {d e : Draft} (journal : e.journal = d.journal) :
      Filtered V (.error failure, d) (.error failure, e)
  | refused {failure : Failure} (h : failure.IsRefusal) (d : Draft)
      (result : Except Failure α × Draft) : Filtered V (.error failure, d) result

/-- On a draft and its counterpart, the first step ends as the second one does, unless a registry
refuses a job. -/
def Filters (V : α → α → Prop) (step free : Build α) : Prop :=
  ∀ d e, d.Counterpart e → Filtered V (step d) (free e)

/-- Registries make no other difference to the step than to refuse a job. -/
def Blind (step : Build α) : Prop := step.Filters Eq step

variable {V : α → α → Prop} {W : β → β → Prop} {step free : Build α} {next next' : α → Build β}

section Rules

theorem filters_pure {a b : α} (h : V a b) : (pure a : Build α).Filters V (pure b) :=
  fun _ _ hd => .yielded h hd

theorem blind_pure (a : α) : (pure a : Build α).Blind := filters_pure rfl

theorem Filters.bind (h : step.Filters V free)
    (hnext : ∀ a b, V a b → (next a).Filters W (next' b)) :
    (step >>= next).Filters W (free >>= next') := by
  intro d e hd
  have hfirst := h d e hd
  simp only [Bind.bind, Build.bind]
  generalize step d = result at hfirst ⊢
  generalize free e = result' at hfirst ⊢
  cases hfirst with
  | yielded value draft => exact hnext _ _ value _ _ draft
  | failed failure journal => exact .failed failure journal
  | refused hrefusal d _ => exact .refused hrefusal d _

theorem Blind.bind (h : step.Blind) (hnext : ∀ a, (next a).Filters W (next' a)) :
    (step >>= next).Filters W (step >>= next') := by
  refine Filters.bind h ?_
  rintro a _ rfl
  exact hnext a

theorem blind_ofExcept (outcome : Except Failure α) : (ofExcept outcome).Blind := by
  intro d e hd
  cases outcome with
  | ok value => exact .yielded rfl hd
  | error failure => exact .failed failure hd.journal

theorem blind_note (event : Event) : (note event).Blind := by
  intro d e hd
  refine .yielded rfl ⟨hd.scenario, ?_⟩
  show e.journal ++ [event] = d.journal ++ [event]
  rw [hd.journal]

theorem filters_scenario {f g : Scenario → Build β} (h : ∀ s, (f s).Filters W (g s.unchecked)) :
    (scenario >>= f).Filters W (scenario >>= g) := by
  have hsame : scenario.Filters Counterpart scenario := fun _ _ hd => .yielded hd.scenario hd
  refine hsame.bind ?_
  rintro s _ ⟨-, rfl⟩
  exact h s

theorem blind_nextScope : nextScope.Blind := by
  refine filters_scenario fun s => ?_
  apply filters_pure
  rw [unchecked_scope, unchecked_ids]

theorem filters_call {f g : Scenario → Except Failure (α × Scenario)}
    (h : ∀ s, s.Reachable → (∃ failure, f s = .error failure ∧ failure.IsRefusal) ∨
      g s.unchecked = (f s).map (Prod.map id unchecked) ∧
        ∀ value t, f s = .ok (value, t) → t.Reachable) : (call f).Filters Eq (call g) := by
  rintro d ⟨_, journal⟩ ⟨⟨hs, rfl⟩, hjournal⟩
  simp only [call]
  rcases h d.scenario hs with ⟨failure, hf, hrefusal⟩ | ⟨hg, ht⟩
  · rw [hf]
    exact .refused hrefusal _ _
  · rw [hg]
    cases hf : f d.scenario with
    | error failure => exact .failed failure hjournal
    | ok result => exact .yielded rfl ⟨⟨ht _ _ hf, rfl⟩, hjournal⟩

theorem blind_noteAdded (handle : Handle) : (noteAdded handle).Blind := by
  refine filters_scenario fun s => ?_
  rw [unchecked_name]
  exact blind_note _

theorem blind_argument (name description : String) : (argument name description).Blind := by
  apply filters_call
  intro s hs
  refine .inr ⟨s.addArgument_unchecked name description none, ?_⟩
  intro ref t hadd
  obtain ⟨hname, -, rfl⟩ := addArgument_eq_ok_iff.mp hadd
  exact hs.performs (c := .addArgument name description none) (by simp [Call.embedded?])
    (.argument hname)

theorem filters_add (payload : Payload) (wait : WaitClause)
    (hembedded : ∀ inner bindings, payload = .startScenario inner bindings → inner.Reachable) :
    (add payload wait).Filters Eq (add payload.unchecked wait) := by
  have hadd : (call fun s => s.addFunction payload wait).Filters Eq
      (call fun s => s.addFunction payload.unchecked wait) := by
    apply filters_call
    intro s hs
    refine (s.addFunction_refused_or payload wait).imp_right fun hfree => ⟨hfree, ?_⟩
    intro handle t hok
    exact hs.addFunction hembedded hok
  refine hadd.bind ?_
  rintro handle _ rfl
  exact (blind_noteAdded handle).bind fun _ => blind_pure handle

theorem blind_startJob (launch : JobLaunch) (wait : WaitClause) :
    (startJob launch wait).Blind := by
  have hadd := filters_add (.startJob launch) wait (by simp)
  rwa [Payload.unchecked] at hadd

theorem blind_stopJobs (targets : List Handle) (wait : WaitClause) :
    (stopJobs targets wait).Blind := by
  have hadd := filters_add (.stopJobs (targets.map Handle.reference)) wait (by simp)
  rwa [Payload.unchecked] at hadd

theorem filters_startScenario {inner free : Scenario} (h : inner.Counterpart free)
    (bindings : Entries String ParameterValue) (wait : WaitClause) :
    (startScenario inner bindings wait).Filters Eq (startScenario free bindings wait) := by
  obtain ⟨hinner, rfl⟩ := h
  have hadd := filters_add (.startScenario inner bindings) wait
    (by rintro _ _ ⟨⟩; exact hinner)
  rwa [Payload.unchecked] at hadd

/-- The failures of a declaration come before those of the registry. -/
theorem filters_declare {inner free : Scenario} (h : inner.Counterpart free) (c : Composer)
    (id : Nat) (launched finished : List Nat) (wait : WaitClause)
    (bindings : Entries String ParameterValue) :
    (declare c id launched finished wait (.startScenario inner bindings)).Filters Eq
      (declare c id launched finished wait (.startScenario free bindings)) := by
  obtain ⟨hinner, rfl⟩ := h
  unfold declare
  refine Filters.bind (filters_call ?_) ?_
  · intro s hs
    have hfree := s.addFunction_unchecked (.startScenario inner bindings)
      (c.extendWait wait launched finished) (by simp)
    rw [Payload.unchecked] at hfree
    right
    simp only [Composer.declare, hfree]
    cases c.check id launched finished with
    | error failure => exact ⟨rfl, by rintro _ _ ⟨⟩⟩
    | ok _ =>
        cases hadd : s.addFunction (.startScenario inner bindings)
            (c.extendWait wait launched finished) with
        | error failure => exact ⟨rfl, by rintro _ _ ⟨⟩⟩
        | ok result =>
            refine ⟨rfl, ?_⟩
            rintro _ _ ⟨⟩
            exact hs.addFunction (by rintro _ _ ⟨⟩; exact hinner) hadd
  · rintro result _ rfl
    exact (blind_noteAdded result.1).bind fun _ => blind_pure result.2

theorem filters_foldlM {f g : β → α → Build β} (h : ∀ b x, (f b x).Filters Eq (g b x))
    (xs : List α) (b : β) : (xs.foldlM f b).Filters Eq (xs.foldlM g b) := by
  induction xs generalizing b with
  | nil => exact blind_pure b
  | cons x xs ih =>
      rw [List.foldlM_cons, List.foldlM_cons]
      refine (h b x).bind ?_
      rintro next _ rfl
      exact ih next

theorem blind_forM {f : α → Build Unit} (h : ∀ x, (f x).Blind) (xs : List α) :
    (xs.forM f).Blind := by
  induction xs with
  | nil => exact blind_pure ()
  | cons x xs ih => exact (h x).bind fun _ => ih

theorem blind_extractJobs (predicate : JobLaunch → Bool) : (extractJobs predicate).Blind := by
  refine filters_scenario fun s => ?_
  have hfound : s.unchecked.extractJobs predicate = s.extractJobs predicate := by
    rw [Scenario.extractJobs, Scenario.extractJobs, s.jobMatches_unchecked]
  simp only [s.jobMatches_unchecked, hfound, unchecked_name]
  refine (blind_forM ?_ _).bind fun _ => (blind_note _).bind fun _ => blind_pure _
  intro m
  split
  · exact blind_note _
  · exact blind_pure ()

theorem filters_aside {start start' : Scenario} (hstart : start.Counterpart start')
    {steps : Build Unit} (h : steps.Blind) :
    (aside start steps).Filters Counterpart (aside start' steps) := by
  intro d e hd
  have hsteps := h ⟨start, d.journal⟩ ⟨start', e.journal⟩ ⟨hstart, hd.journal⟩
  simp only [aside]
  generalize steps ⟨start, d.journal⟩ = result at hsteps ⊢
  generalize steps ⟨start', e.journal⟩ = result' at hsteps ⊢
  cases hsteps with
  | yielded _ draft => exact .yielded draft.scenario ⟨hd.scenario, draft.journal⟩
  | failed failure journal => exact .failed failure journal
  | refused hrefusal d _ => exact .refused hrefusal _ _

end Rules

end Build

end Orchestration
