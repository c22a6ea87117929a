import Mathlib.Data.List.Basic
import Mathlib.Data.List.Forall2

namespace Orchestration.Outcome

variable {ε α β : Type}

theorem bind_eq_ok_iff {x : Except ε α} {f : α → Except ε β} {b : β} :
    (x >>= f) = .ok b ↔ ∃ a, x = .ok a ∧ f a = .ok b := by
  cases x with
  | error failure => simp [bind, Except.bind]
  | ok a => simp [bind, Except.bind]

theorem bind_eq_error_iff {x : Except ε α} {f : α → Except ε β} {failure : ε} :
    (x >>= f) = .error failure ↔ x = .error failure ∨ ∃ a, x = .ok a ∧ f a = .error failure := by
  cases x with
  | error other => simp [bind, Except.bind]
  | ok a => simp [bind, Except.bind]

@[simp] theorem pure_eq_ok_iff {a b : α} : (pure a : Except ε α) = .ok b ↔ a = b := by
  simp [pure, Except.pure]

@[simp] theorem throw_ne_ok {failure : ε} {a : α} :
    (throw failure : Except ε α) ≠ .ok a := by
  simp [throw, throwThe, MonadExceptOf.throw]

theorem forM_eq_ok_iff {f : α → Except ε Unit} {xs : List α} :
    xs.forM f = .ok () ↔ ∀ x ∈ xs, f x = .ok () := by
  induction xs with
  | nil => simp [List.forM, pure, Except.pure]
  | cons x xs ih =>
      simp only [List.forM, bind_eq_ok_iff, ih, List.mem_cons, forall_eq_or_imp]
      constructor
      · rintro ⟨_, hx, hxs⟩
        exact ⟨hx, hxs⟩
      · rintro ⟨hx, hxs⟩
        exact ⟨(), hx, hxs⟩

theorem exists_of_forM_eq_error {f : α → Except ε Unit} {xs : List α} {failure : ε}
    (h : xs.forM f = .error failure) : ∃ x ∈ xs, f x = .error failure := by
  induction xs with
  | nil => cases h
  | cons x xs ih =>
      rcases bind_eq_error_iff.mp h with hx | ⟨_, -, hxs⟩
      · exact ⟨x, List.mem_cons_self, hx⟩
      · obtain ⟨y, hy, hfail⟩ := ih hxs
        exact ⟨y, List.mem_cons_of_mem _ hy, hfail⟩

theorem mapM_eq_ok_iff {f : α → Except ε β} {xs : List α} {ys : List β} :
    xs.mapM f = .ok ys ↔ List.Forall₂ (fun x y => f x = .ok y) xs ys := by
  induction xs generalizing ys with
  | nil => rw [List.mapM_nil, pure_eq_ok_iff, List.forall₂_nil_left_iff, eq_comm]
  | cons x xs ih =>
      simp only [List.mapM_cons, bind_eq_ok_iff, pure_eq_ok_iff, ih]
      constructor
      · rintro ⟨y, hx, ys, hxs, rfl⟩
        exact .cons hx hxs
      · rintro (_ | ⟨hx, hxs⟩)
        exact ⟨_, hx, _, hxs, rfl⟩

theorem exists_of_mapM_eq_error {f : α → Except ε β} {xs : List α} {failure : ε}
    (h : xs.mapM f = .error failure) : ∃ x ∈ xs, f x = .error failure := by
  induction xs with
  | nil => cases h
  | cons x xs ih =>
      rw [List.mapM_cons] at h
      rcases bind_eq_error_iff.mp h with hx | ⟨_, -, h⟩
      · exact ⟨x, List.mem_cons_self, hx⟩
      · rcases bind_eq_error_iff.mp h with hxs | ⟨_, -, h⟩
        · obtain ⟨y, hy, hfail⟩ := ih hxs
          exact ⟨y, List.mem_cons_of_mem _ hy, hfail⟩
        · cases h

theorem seq_eq_ok_iff {x : Except ε Unit} {y : Except ε β} {b : β} :
    (do x; y) = .ok b ↔ x = .ok () ∧ y = .ok b := by
  rw [bind_eq_ok_iff]
  constructor
  · rintro ⟨_, hx, hy⟩
    exact ⟨hx, hy⟩
  · rintro ⟨hx, hy⟩
    exact ⟨(), hx, hy⟩

@[simp] theorem unless_throw_eq_ok_iff {p : Prop} [Decidable p] {failure : ε} :
    (if p then throw failure else pure () : Except ε Unit) = .ok () ↔ ¬ p := by
  by_cases hp : p <;> simp [hp]

/-- A check of a condition passes when the condition holds. -/
theorem guard_eq_ok_iff {p : Prop} [Decidable p] {failure : ε} :
    (if p then pure () else throw failure : Except ε Unit) = .ok () ↔ p := by
  by_cases hp : p <;> simp [hp]

theorem guard_seq_eq_ok_iff {p : Prop} [Decidable p] {failure : ε} {next : Unit → Except ε β}
    {b : β} :
    (if p then do let r ← throw failure; next r else next ()) = .ok b ↔
      ¬ p ∧ next () = .ok b := by
  by_cases hp : p
  · simp [hp, bind, Except.bind, throw, throwThe, MonadExceptOf.throw]
  · simp [hp]

end Orchestration.Outcome
