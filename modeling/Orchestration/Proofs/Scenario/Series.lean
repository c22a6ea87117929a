import Orchestration.Proofs.Building

namespace Orchestration

/-- Functions with consecutive ids. -/
def numbered (first : FunctionId) (added : List (Payload × WaitClause)) : List ScenarioFunction :=
  (added.zipIdx first).map fun f => ⟨f.2, f.1.1, f.1.2⟩

section Numbered

variable {first : FunctionId} {added more : List (Payload × WaitClause)}

theorem numbered_append :
    numbered first (added ++ more) =
      numbered first added ++ numbered (first + added.length) more := by
  rw [numbered, List.zipIdx_append, List.map_append, numbered, numbered]

theorem numbered_cons {f : Payload × WaitClause} :
    numbered first (f :: added) = ⟨first, f.1, f.2⟩ :: numbered (first + 1) added := by
  simp [numbered]

@[simp] theorem length_numbered : (numbered first added).length = added.length := by
  simp [numbered]

theorem getElem?_numbered (i : Nat) :
    (numbered first added)[i]? = added[i]?.map fun f => ⟨first + i, f.1, f.2⟩ := by
  simp [numbered, Function.comp_def]

theorem mem_of_mem_numbered {f : ScenarioFunction} (h : f ∈ numbered first added) :
    (f.payload, f.wait) ∈ added := by
  obtain ⟨entry, hentry, rfl⟩ := List.mem_map.mp h
  exact List.fst_mem_of_mem_zipIdx hentry

theorem mem_numbered_map {α : Type} {xs : List α} {g : α → Payload × WaitClause}
    {f : ScenarioFunction} :
    f ∈ numbered first (xs.map g) ↔
      ∃ i x, xs[i]? = some x ∧ ⟨first + i, (g x).1, (g x).2⟩ = f := by
  simp only [List.mem_iff_getElem?, getElem?_numbered, List.getElem?_map, Option.map_map,
    Option.map_eq_some_iff, Function.comp_apply]

theorem flatMap_numbered {α β : Type} (first : FunctionId) (xs : List α)
    (g : α → Payload × WaitClause) (φ : ScenarioFunction → List β) :
    (numbered first (xs.map g)).flatMap φ =
      (xs.zipIdx first).flatMap fun x => φ ⟨x.2, (g x.1).1, (g x.1).2⟩ := by
  rw [numbered, List.zipIdx_map, List.map_map, List.flatMap_map]
  rfl

end Numbered

namespace Scenario

/-- The scenario with functions added in a row. -/
def withFunctions (s : Scenario) (added : List (Payload × WaitClause)) : Scenario :=
  added.foldl (fun s f => s.withFunction f.1 f.2) s

section Row

variable (s : Scenario) (added more : List (Payload × WaitClause))

theorem withFunctions_append :
    s.withFunctions (added ++ more) = (s.withFunctions added).withFunctions more :=
  List.foldl_append

theorem withFunctions_concat (payload : Payload) (wait : WaitClause) :
    s.withFunctions (added ++ [(payload, wait)]) =
      (s.withFunctions added).withFunction payload wait :=
  List.foldl_concat _ _ _ _

theorem withFunctions_eq :
    s.withFunctions added =
      { s with
        functions := s.functions ++ numbered s.ids.next added
        ids := ⟨s.ids.next + added.length⟩ } := by
  induction added generalizing s with
  | nil =>
      cases s
      simp [withFunctions, numbered]
  | cons f added ih =>
      refine (ih _).trans ?_
      simp only [withFunction, numbered_cons, List.length_cons, List.append_assoc,
        List.singleton_append, Nat.add_assoc, Nat.add_comm 1]

@[simp] theorem scope_withFunctions : (s.withFunctions added).scope = s.scope := by
  rw [withFunctions_eq]

@[simp] theorem registry_withFunctions : (s.withFunctions added).registry = s.registry := by
  rw [withFunctions_eq]

theorem next_withFunctions : (s.withFunctions added).ids.next = s.ids.next + added.length := by
  rw [withFunctions_eq]

theorem functions_withFunctions :
    (s.withFunctions added).functions = s.functions ++ numbered s.ids.next added := by
  rw [withFunctions_eq]

end Row

end Scenario

section Repeats

variable {α : Type} [BEq α] [LawfulBEq α] {xs : List α} {x : α}

theorem eraseDups_concat_of_mem (h : x ∈ xs) : (xs ++ [x]).eraseDups = xs.eraseDups := by
  rw [List.eraseDups_append]
  simp [List.removeAll, h]

theorem eraseDups_concat_of_notMem (h : x ∉ xs) :
    (xs ++ [x]).eraseDups = xs.eraseDups ++ [x] := by
  rw [List.eraseDups_append]
  simp [List.removeAll, h, List.eraseDups_cons]

theorem eraseDups_of_nodup (h : xs.Nodup) : xs.eraseDups = xs := by
  induction xs using List.reverseRecOn with
  | nil => rfl
  | append_singleton xs x ih =>
      rw [List.nodup_append] at h
      have hnew : x ∉ xs := fun hmem => h.2.2 x hmem x (List.mem_singleton_self x) rfl
      rw [eraseDups_concat_of_notMem hnew, ih h.1]

end Repeats

namespace WaitClause

/-- What is given, then what is listed, in the order of the list and nothing twice. -/
def joined (given listed : List Reference) : List Reference :=
  given ++ (listed.filter (· ∉ given)).eraseDups

theorem foldl_addOnce (given listed : List Reference) :
    listed.foldl addOnce given = joined given listed := by
  -- The induction is on the last target, as a target counts as repeated by what stands before it.
  induction listed using List.reverseRecOn with
  | nil => exact (List.append_nil given).symm
  | append_singleton listed target ih =>
      rw [List.foldl_concat, ih, joined, joined, List.filter_append]
      by_cases hgiven : target ∈ given
      · simp [addOnce, hgiven]
      · have hnew : [target].filter (· ∉ given) = [target] := by simp [hgiven]
        rw [hnew]
        by_cases hlisted : target ∈ listed
        · have hmem : target ∈ listed.filter (· ∉ given) := by simp [hlisted, hgiven]
          rw [eraseDups_concat_of_mem hmem, addOnce,
            if_pos (List.mem_append_right _ (List.mem_eraseDups.mpr hmem))]
        · have hmem : target ∉ listed.filter (· ∉ given) := by simp [hlisted]
          rw [eraseDups_concat_of_notMem hmem, addOnce, if_neg (by simp [hgiven, hlisted]),
            List.append_assoc]

theorem mem_joined {given listed : List Reference} {r : Reference} :
    r ∈ joined given listed ↔ r ∈ given ∨ r ∈ listed := by
  rw [← foldl_addOnce, mem_foldl_addOnce]

/-- References that are named in a row are named where they come first. -/
theorem foldl_addOnce_nil (targets : List Reference) :
    targets.foldl addOnce [] = targets.eraseDups := by
  rw [foldl_addOnce, joined, List.nil_append]
  simp

end WaitClause

end Orchestration
