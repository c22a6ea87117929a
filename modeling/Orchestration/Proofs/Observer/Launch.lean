import Orchestration.Observer.Basic
import Orchestration.Proofs.Scenario.Outline

namespace Orchestration

namespace ParameterTable

/-- The argument is the first one declared that needs a value and is not among the names. -/
def FirstUnbound (t : ParameterTable) (names : List String) (a : Argument) : Prop :=
  ∃ before after, t.arguments = before ++ a :: after ∧ a.default = none ∧ a.name ∉ names ∧
    ∀ b ∈ before, b.default = none → b.name ∈ names

/-- The smallest of the names that no argument has. -/
def LeastUndeclared (t : ParameterTable) (names : List String) (name : String) : Prop :=
  name ∈ names ∧ name ∉ t.arguments.map Argument.name ∧
    ∀ other ∈ names, other ∉ t.arguments.map Argument.name → name ≤ other

/-- What decides against the values given to the arguments of a table. -/
inductive Misfit where
  | unbound (a : Argument)
  | undeclared (name : String)

def misfit? {α : Type} (t : ParameterTable) (given : Entries String α) : Option Misfit :=
  match t.required.find? fun a => !Entries.has a.name given with
  | some a => some (.unbound a)
  | none => ((Entries.keys given).find? fun name => (t.argument? name).isNone).map .undeclared

variable {α : Type} {t : ParameterTable} {given : Entries String α}

theorem complete_of_find?
    (h : (t.required.find? fun a => !Entries.has a.name given) = none) :
    t.Complete (Entries.keys given) := by
  simpa [required, Complete, Argument.isRequired, Entries.has_iff] using h

theorem firstUnbound_of_find? {a : Argument}
    (h : (t.required.find? fun a => !Entries.has a.name given) = some a) :
    t.FirstUnbound (Entries.keys given) a := by
  rw [required, List.find?_filter, List.find?_eq_some_iff_append] at h
  obtain ⟨ha, before, after, hsplit, hbefore⟩ := h
  simp only [Argument.isRequired, Option.isNone_iff_eq_none, Bool.not_eq_true',
    decide_eq_true_eq, ← Bool.not_eq_true, Entries.has_iff] at ha
  refine ⟨before, after, hsplit, ha.1, ha.2, ?_⟩
  intro b hb hdefault
  simpa [Argument.isRequired, hdefault, Entries.has_iff] using hbefore b hb

theorem argument?_isNone_iff {name : String} :
    (t.argument? name).isNone = true ↔ name ∉ t.arguments.map Argument.name := by
  rw [← argument?_isSome_iff]
  cases t.argument? name <;> simp

/-- Where names ascend, the first one that is not declared is the smallest. -/
theorem leastUndeclared_of_find? {names : List String} {name : String}
    (hnames : names.Pairwise (· < ·))
    (h : (names.find? fun name => (t.argument? name).isNone) = some name) :
    t.LeastUndeclared names name := by
  obtain ⟨⟨hmem, hname⟩, hleast⟩ := least_of_find? hnames h
  refine ⟨hmem, argument?_isNone_iff.mp hname, ?_⟩
  intro other hother hundeclared
  exact hleast other ⟨hother, argument?_isNone_iff.mpr hundeclared⟩

end ParameterTable

open ParameterTable

theorem Observer.checkArguments_eq (s : Scenario) (arguments : Entries String Json) :
    checkArguments s arguments = match s.parameters.misfit? arguments with
      | some (.unbound a) => throw (.missingArgument s.name a.name)
      | some (.undeclared name) => throw (s.unresolved (.argument name))
      | none => pure () := by
  unfold checkArguments misfit?
  cases s.parameters.required.find? fun a => !Entries.has a.name arguments with
  | some a => rfl
  | none => cases (Entries.keys arguments).find? _ <;> rfl

namespace Scenario

variable {s inner : Scenario}

theorem checkBinding_literal (name : String) (value : Json) :
    s.checkBinding inner (name, .literal value) =
      if (inner.parameters.argument? name).isNone then
        throw (s.unresolved (.argumentOfEmbedded name inner.name))
      else pure () := by
  unfold checkBinding
  cases inner.parameters.argument? name <;> rfl

theorem forM_checkBinding_literal (arguments : Entries String Json) :
    (Entries.mapValues ParameterValue.literal arguments).forM (s.checkBinding inner) =
      match (Entries.keys arguments).find? fun name =>
          (inner.parameters.argument? name).isNone with
      | some name => throw (s.unresolved (.argumentOfEmbedded name inner.name))
      | none => pure () := by
  induction arguments with
  | nil => rfl
  | cons entry rest ih =>
      obtain ⟨name, value⟩ := entry
      simp only [Entries.mapValues, List.map_cons, List.forM, checkBinding_literal,
        Entries.keys_cons, List.find?_cons]
      cases (inner.parameters.argument? name).isNone with
      | true => rfl
      | false => exact ih

/-- The check of literal values that are bound to the arguments of another scenario. -/
theorem checkBindings_literals (hscope : inner.scope ≠ s.scope) (arguments : Entries String Json) :
    s.checkBindings inner (Entries.mapValues .literal arguments) =
      match inner.parameters.misfit? arguments with
      | some (.unbound a) => throw (.missingArgument inner.name a.name)
      | some (.undeclared name) => throw (s.unresolved (.argumentOfEmbedded name inner.name))
      | none => pure () := by
  have hhas : ∀ name, Entries.has name (Entries.mapValues ParameterValue.literal arguments) =
      Entries.has name arguments := by
    intro name
    rw [Bool.eq_iff_iff, Entries.has_iff, Entries.has_iff, Entries.keys_mapValues]
  unfold checkBindings misfit?
  rw [if_neg hscope]
  simp only [hhas, forM_checkBinding_literal]
  cases inner.parameters.required.find? fun a => !Entries.has a.name arguments with
  | some a => rfl
  | none => cases (Entries.keys arguments).find? _ <;> rfl

theorem startScenario_literals (hscope : inner.scope ≠ s.scope) (arguments : Entries String Json) :
    s.startScenario inner (Entries.mapValues .literal arguments) {} =
      match inner.parameters.misfit? arguments with
      | some (.unbound a) => throw (.missingArgument inner.name a.name)
      | some (.undeclared name) => throw (s.unresolved (.argumentOfEmbedded name inner.name))
      | none => pure (⟨s.scope, s.ids.next, .startScenario⟩,
          s.withFunction (.startScenario inner (Entries.mapValues .literal arguments)) {}) := by
  have hwait : s.checkWait {} = .ok () := rfl
  rw [startScenario, addFunction, hwait, checkPayload, checkBindings_literals hscope]
  cases inner.parameters.misfit? arguments with
  | none => rfl
  | some misfit => cases misfit <;> rfl

/-- A launch passes its checks exactly when another scenario can embed the scenario with the same
literals, and they are refused for the same reason. What is refused is not submitted; what is
accepted is submitted once, with its description and the values as they are given, and then the
answer decides. -/
theorem Reachable.launch_like_embedding {e p : Scenario} (he : e.Reachable)
    (hscope : e.scope ≠ p.scope) {arguments : Entries String Json}
    (hkeys : (Entries.keys arguments).Pairwise (· < ·)) (submit : Submission → Except Failure Nat) :
    (Observer.checkArguments e arguments = .ok () ↔
      ∃ added, p.startScenario e (Entries.mapValues .literal arguments) {} = .ok added) ∧
    ((∃ d added, e.describe = .ok d ∧
        p.startScenario e (Entries.mapValues .literal arguments) {} = .ok added ∧
        Observer.launch submit e arguments = ⟨[⟨d, arguments⟩], submit ⟨d, arguments⟩⟩) ∨
      (∃ a, e.parameters.FirstUnbound (Entries.keys arguments) a ∧
        p.startScenario e (Entries.mapValues .literal arguments) {} =
          .error (.missingArgument e.name a.name) ∧
        Observer.launch submit e arguments = ⟨[], .error (.missingArgument e.name a.name)⟩) ∨
      ∃ name, e.parameters.Complete (Entries.keys arguments) ∧
        e.parameters.LeastUndeclared (Entries.keys arguments) name ∧
        p.startScenario e (Entries.mapValues .literal arguments) {} =
          .error (p.unresolved (.argumentOfEmbedded name e.name)) ∧
        Observer.launch submit e arguments = ⟨[], .error (e.unresolved (.argument name))⟩) := by
  obtain ⟨d, hd, -⟩ := he.exists_describe
  have hcheck := Observer.checkArguments_eq e arguments
  rw [startScenario_literals hscope, Observer.launch, Observer.submission, hd]
  rw [misfit?] at hcheck ⊢
  cases hrequired : e.parameters.required.find? fun a => !Entries.has a.name arguments with
  | some a =>
      simp only [hrequired] at hcheck ⊢
      rw [hcheck]
      refine ⟨by simp, .inr (.inl ⟨a, firstUnbound_of_find? hrequired, rfl, rfl⟩)⟩
  | none =>
      have hcomplete := complete_of_find? hrequired
      simp only [hrequired] at hcheck ⊢
      cases hnames : (Entries.keys arguments).find? fun name =>
          (e.parameters.argument? name).isNone with
      | some name =>
          simp only [hnames, Option.map_some] at hcheck ⊢
          rw [hcheck]
          refine ⟨by simp, .inr (.inr ⟨name, hcomplete, ?_, rfl, rfl⟩)⟩
          exact leastUndeclared_of_find? hkeys hnames
      | none =>
          simp only [hnames, Option.map_none] at hcheck ⊢
          rw [hcheck]
          exact ⟨by simp, .inl ⟨d, _, rfl, rfl, rfl⟩⟩

/-- Neither is the worker launched with a rate, nor does the manager embed it with one. -/
theorem worker_launch_like_embedding :
    worker.scope ≠ manager.scope ∧ ["rate", "size"].Pairwise (· < ·) ∧
      manager.startScenario worker
          (Entries.mapValues .literal [("rate", .ofNat 1), ("size", .ofNat 2)]) {} =
        .error (manager.unresolved (.argumentOfEmbedded "rate" "worker")) ∧
      Observer.launch (fun _ => .ok 1) worker [("rate", .ofNat 1), ("size", .ofNat 2)] =
        ⟨[], .error (worker.unresolved (.argument "rate"))⟩ := by
  have hscope : worker.scope ≠ manager.scope := by decide
  have hkeys : (Entries.keys [("rate", Json.ofNat 1), ("size", .ofNat 2)]).Pairwise (· < ·) := by
    decide
  have hdeclared : worker.parameters.arguments.map Argument.name = ["size"] := by rfl
  refine ⟨hscope, hkeys, ?_⟩
  obtain ⟨hiff, haccepted | ⟨a, hunbound, -⟩ | ⟨name, -, hleast, hembedding, hlaunch⟩⟩ :=
    worker_reachable.launch_like_embedding hscope hkeys fun _ => .ok 1
  · obtain ⟨d, added, -, hadded, -⟩ := haccepted
    have hcheck := hiff.mpr ⟨added, hadded⟩
    cases hcheck
  · obtain ⟨before, after, hsplit, -, hname, -⟩ := hunbound
    have hmem : a.name ∈ worker.parameters.arguments.map Argument.name :=
      List.mem_map_of_mem (hsplit ▸ by simp)
    rw [hdeclared, List.mem_singleton] at hmem
    simp [hmem] at hname
  · obtain ⟨hgiven, hundeclared, -⟩ := hleast
    obtain rfl : name = "rate" := by
      rw [hdeclared] at hundeclared
      simpa [hundeclared] using hgiven
    exact ⟨hembedding, hlaunch⟩

end Scenario

end Orchestration
