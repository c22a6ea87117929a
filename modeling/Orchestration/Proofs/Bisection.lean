import Mathlib.Data.List.Basic
import Orchestration.Bisection

namespace Orchestration.Bisection

variable {α β : Type} {key : α → Nat} {wanted : Nat} {members : List α}

theorem narrow_sublist (rounds : Nat) (members : List α) :
    (narrow key wanted rounds members).Sublist members := by
  induction rounds generalizing members with
  | zero => exact List.Sublist.refl _
  | succ rounds ih =>
      rw [narrow]
      split_ifs
      · exact List.Sublist.refl _
      · exact (ih _).trans (List.take_sublist _ _)
      · exact (ih _).trans (List.drop_sublist _ _)

theorem length_narrow_le (rounds : Nat) (members : List α) (h : members.length ≤ rounds + 1) :
    (narrow key wanted rounds members).length ≤ 1 := by
  induction rounds generalizing members with
  | zero => exact h
  | succ rounds ih =>
      rw [narrow]
      split_ifs with hhalf
      · omega
      · exact ih _ (by rw [List.length_take]; omega)
      · exact ih _ (by rw [List.length_drop]; omega)

theorem lt_of_key_lt (hascends : (members.map key).Pairwise (· < ·)) {i j : Nat}
    (hi : i < members.length) (hj : j < members.length) (h : key members[i] < key members[j]) :
    i < j := by
  rw [List.pairwise_map, List.pairwise_iff_getElem] at hascends
  rcases Nat.lt_trichotomy i j with hlt | rfl | hgt
  · exact hlt
  · exact absurd h (Nat.lt_irrefl _)
  · exact absurd h (Nat.lt_asymm (hascends j i hj hi hgt))

/-- The half that is left out does not hold the wanted member. -/
theorem mem_narrow {member : α} (hmem : member ∈ members)
    (hascends : (members.map key).Pairwise (· < ·)) (rounds : Nat) :
    member ∈ narrow key (key member) rounds members := by
  induction rounds generalizing members with
  | zero => exact hmem
  | succ rounds ih =>
      obtain ⟨place, hplace, heq⟩ := List.getElem_of_mem hmem
      have hmiddle : members.length / 2 < members.length := by omega
      rw [narrow, List.getElem?_eq_getElem hmiddle]
      split_ifs with hhalf hlarge
      · exact hmem
      · -- The member stands before the middle.
        have hlt : place < members.length / 2 :=
          lt_of_key_lt hascends hplace hmiddle (by simpa [heq] using hlarge)
        refine ih ?_ (hascends.sublist ((List.take_sublist _ _).map key))
        exact heq ▸ List.mem_take_iff_getElem.mpr ⟨place, by omega, rfl⟩
      · have hle : members.length / 2 ≤ place := by
          by_contra hlt
          have hkey := (List.pairwise_iff_getElem.mp (List.pairwise_map.mp hascends))
            place _ hplace hmiddle (Nat.lt_of_not_le hlt)
          exact hlarge (by simpa [heq] using hkey)
        refine ih ?_ (hascends.sublist ((List.drop_sublist _ _).map key))
        refine heq ▸ List.mem_drop_iff_getElem.mpr ⟨place - members.length / 2, by omega, ?_⟩
        congr 1
        omega

theorem mem_of_find? {member : α} (h : find? key wanted members = some member) :
    member ∈ members ∧ key member = wanted := by
  obtain ⟨hhead, hkey⟩ := Option.filter_eq_some_iff.mp h
  exact ⟨(narrow_sublist _ _).subset (List.mem_of_head? hhead), by simpa using hkey⟩

/-- Where the keys ascend, what is there is found. -/
theorem find?_of_mem {member : α} (hmem : member ∈ members)
    (hascends : (members.map key).Pairwise (· < ·)) :
    find? key (key member) members = some member := by
  have hin := mem_narrow hmem hascends members.length
  have hlength : (narrow key (key member) members.length members).length ≤ 1 :=
    length_narrow_le _ _ (Nat.le_succ _)
  rw [find?]
  match narrow key (key member) members.length members, hin, hlength with
  | [only], hin, _ =>
      obtain rfl := List.mem_singleton.mp hin
      simp

theorem find?_append {member : α} {rest : List α}
    (hascends : ((members ++ rest).map key).Pairwise (· < ·))
    (h : find? key wanted members = some member) :
    find? key wanted (members ++ rest) = some member := by
  obtain ⟨hmem, rfl⟩ := mem_of_find? h
  exact find?_of_mem (List.mem_append_left _ hmem) hascends

theorem find?_map (f : α → β) {other : β → Nat} (hf : ∀ member, other (f member) = key member)
    (members : List α) :
    find? other wanted (members.map f) = (find? key wanted members).map f := by
  have hnarrow : ∀ rounds (members : List α), narrow other wanted rounds (members.map f) =
      (narrow key wanted rounds members).map f := by
    intro rounds
    induction rounds with
    | zero => exact fun _ => rfl
    | succ rounds ih =>
        intro members
        rw [narrow, narrow]
        simp only [List.length_map, List.getElem?_map, Option.any_map, hf,
          ← List.map_take, ← List.map_drop, ih]
        split_ifs <;> rfl
  rw [find?, find?, List.length_map, hnarrow, List.head?_map, Option.filter_map]
  simp [Function.comp_def, hf]

end Orchestration.Bisection
