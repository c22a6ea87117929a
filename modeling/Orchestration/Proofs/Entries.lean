import Mathlib.Data.List.Induction
import Mathlib.Data.List.Nodup
import Orchestration.Entries

namespace Orchestration.Entries

variable {κ α : Type} [DecidableEq κ]

section Lookup

omit [DecidableEq κ] in
@[simp] theorem keys_nil : keys ([] : Entries κ α) = [] := rfl

omit [DecidableEq κ] in
@[simp] theorem keys_cons (key : κ) (value : α) (entries : Entries κ α) :
    keys ((key, value) :: entries) = key :: keys entries :=
  rfl

omit [DecidableEq κ] in
theorem keys_mapValues {β : Type} (f : α → β) (entries : Entries κ α) :
    keys (mapValues f entries) = keys entries := by
  simp [keys, mapValues, Function.comp_def]

theorem mem_of_find? {key : κ} {value : α} {entries : Entries κ α}
    (h : find? key entries = some value) : (key, value) ∈ entries := by
  induction entries with
  | nil => simp [find?] at h
  | cons entry rest ih =>
      rw [find?] at h
      split at h
      next hkey =>
        obtain ⟨k, v⟩ := entry
        simp_all
      next => exact List.mem_cons_of_mem _ (ih h)

theorem find?_isSome_iff {key : κ} {entries : Entries κ α} :
    (find? key entries).isSome ↔ key ∈ keys entries := by
  induction entries with
  | nil => simp [find?, keys]
  | cons entry rest ih =>
      rw [find?]
      by_cases hkey : entry.1 = key
      · simp [hkey, keys]
      · simp only [hkey, ↓reduceIte, ih, keys, List.map_cons, List.mem_cons]
        simp [Ne.symm hkey]

theorem has_iff {key : κ} {entries : Entries κ α} :
    has key entries = true ↔ key ∈ keys entries :=
  find?_isSome_iff

theorem find?_append (key : κ) (entries rest : Entries κ α) :
    find? key (entries ++ rest) = (find? key entries).or (find? key rest) := by
  induction entries with
  | nil => simp [find?]
  | cons entry entries ih =>
      simp only [List.cons_append, find?]
      split <;> simp [ih]

theorem find?_eq_some_of_mem {key : κ} {value : α} {entries : Entries κ α}
    (hnodup : (keys entries).Nodup) (h : (key, value) ∈ entries) :
    find? key entries = some value := by
  induction entries with
  | nil => simp at h
  | cons entry rest ih =>
      simp only [keys, List.map_cons, List.nodup_cons] at hnodup
      rw [find?]
      rcases List.mem_cons.mp h with rfl | h
      · simp
      · have hne : entry.1 ≠ key := by
          rintro rfl
          exact hnodup.1 (List.mem_map.mpr ⟨_, h, rfl⟩)
        rw [if_neg hne]
        exact ih hnodup.2 h

end Lookup

section Insertion

variable [LT κ] [DecidableLT κ]

theorem find?_insert (key other : κ) (value : α) (entries : Entries κ α) :
    find? key (insert other value entries) =
      if other = key then some value else find? key entries := by
  induction entries with
  | nil => simp [insert, find?]
  | cons entry rest ih =>
      rw [insert]
      split
      next => rw [find?]
      next =>
        split
        next heq =>
          subst heq
          simp only [find?]
          split <;> rfl
        next hne =>
          simp only [find?, ih]
          by_cases hentry : entry.1 = key
          · have hother : other ≠ key := fun h => hne (h.trans hentry.symm)
            simp [hentry, hother]
          · simp [hentry]

private theorem find?_foldl_insert (key : κ) (pairs : List (κ × α)) (entries : Entries κ α) :
    find? key (pairs.foldl (fun entries pair => insert pair.1 pair.2 entries) entries) =
      (find? key pairs.reverse).or (find? key entries) := by
  induction pairs generalizing entries with
  | nil => simp [find?]
  | cons pair pairs ih =>
      rw [List.foldl_cons, ih, find?_insert, List.reverse_cons, find?_append]
      simp only [find?]
      cases find? key pairs.reverse <;> split <;> simp

/-- Of the values given for a key, the last one stays. -/
theorem find?_ofList (key : κ) (pairs : List (κ × α)) :
    find? key (ofList pairs) = find? key pairs.reverse := by
  rw [ofList, find?_foldl_insert]
  simp [find?]

theorem mem_keys_ofList {key : κ} {pairs : List (κ × α)} :
    key ∈ keys (ofList pairs) ↔ key ∈ keys pairs := by
  rw [← find?_isSome_iff, find?_ofList, find?_isSome_iff]
  simp [keys]

theorem find?_ofList_of_nodup {key : κ} {value : α} {pairs : List (κ × α)}
    (hnodup : (keys pairs).Nodup) (h : (key, value) ∈ pairs) :
    find? key (ofList pairs) = some value := by
  rw [find?_ofList]
  apply find?_eq_some_of_mem
  · simpa [keys, List.nodup_reverse] using hnodup
  · simpa using h

theorem mem_distinct {key : κ} {members : List κ} : key ∈ distinct members ↔ key ∈ members := by
  rw [distinct, mem_keys_ofList]
  simp [keys]

theorem mem_keys_insert {key other : κ} {value : α} {entries : Entries κ α} :
    key ∈ keys (insert other value entries) ↔ key = other ∨ key ∈ keys entries := by
  rw [← find?_isSome_iff, find?_insert, ← find?_isSome_iff]
  by_cases hkey : other = key
  · simp [hkey]
  · simp [hkey, Ne.symm hkey]

theorem eq_or_mem_of_mem_insert {key : κ} {value : α} {entries : Entries κ α} {entry : κ × α}
    (h : entry ∈ insert key value entries) : entry = (key, value) ∨ entry ∈ entries := by
  induction entries with
  | nil => exact .inl (List.mem_singleton.mp h)
  | cons first rest ih =>
      rw [insert] at h
      split at h
      next => exact List.mem_cons.mp h
      next =>
        split at h
        next => exact (List.mem_cons.mp h).imp_right (List.mem_cons_of_mem _)
        next =>
          rcases List.mem_cons.mp h with rfl | h
          · exact .inr List.mem_cons_self
          · exact (ih h).imp_right (List.mem_cons_of_mem _)

theorem mem_of_mem_ofList {pairs : List (κ × α)} {pair : κ × α} (h : pair ∈ ofList pairs) :
    pair ∈ pairs := by
  suffices hfoldl : ∀ entries : Entries κ α,
      pair ∈ pairs.foldl (fun entries pair => insert pair.1 pair.2 entries) entries →
        pair ∈ pairs ∨ pair ∈ entries from (hfoldl [] h).resolve_right List.not_mem_nil
  clear h
  intro entries h
  induction pairs generalizing entries with
  | nil => exact .inr h
  | cons first rest ih =>
      rcases ih _ h with hrest | hinsert
      · exact .inl (List.mem_cons_of_mem _ hrest)
      · rcases eq_or_mem_of_mem_insert hinsert with rfl | hentries
        · exact .inl List.mem_cons_self
        · exact .inr hentries

theorem ofList_concat (pairs : List (κ × α)) (key : κ) (value : α) :
    ofList (pairs ++ [(key, value)]) = insert key value (ofList pairs) :=
  List.foldl_concat _ _ _ _

theorem insert_perm {key : κ} {value : α} {entries : Entries κ α} (h : key ∉ keys entries) :
    (insert key value entries).Perm ((key, value) :: entries) := by
  induction entries with
  | nil => exact .refl _
  | cons entry rest ih =>
      rw [keys, List.map_cons, List.mem_cons, not_or] at h
      rw [insert, if_neg h.1]
      split
      · exact .refl _
      · exact ((ih h.2).cons entry).trans (.swap _ _ _)

/-- Where no key is given twice, no pair is lost. -/
theorem ofList_perm {pairs : List (κ × α)} (h : (keys pairs).Nodup) :
    (ofList pairs).Perm pairs := by
  induction pairs using List.reverseRecOn with
  | nil => exact .refl _
  | append_singleton pairs pair ih =>
      rw [keys, List.map_append, List.nodup_append] at h
      have hnew : pair.1 ∉ keys (ofList pairs) := fun hmem =>
        h.2.2 pair.1 (mem_keys_ofList.mp hmem) pair.1 (by simp) rfl
      rw [ofList_concat]
      refine (insert_perm hnew).trans (((ih h.1).cons pair).trans ?_)
      exact (List.perm_append_singleton pair pairs).symm

section Order

variable [IsTrans κ (· < ·)] [Std.Trichotomous (α := κ) (· < ·)]

theorem pairwise_keys_insert {key : κ} {value : α} {entries : Entries κ α}
    (h : (keys entries).Pairwise (· < ·)) : (keys (insert key value entries)).Pairwise (· < ·) := by
  induction entries with
  | nil => exact List.pairwise_singleton _ _
  | cons entry rest ih =>
      obtain ⟨hfirst, hrest⟩ := List.pairwise_cons.mp h
      rw [insert]
      split
      next hlt =>
        refine List.pairwise_cons.mpr ⟨?_, h⟩
        rintro other (_ | ⟨_, hother⟩)
        · exact hlt
        · exact IsTrans.trans _ _ _ hlt (hfirst other hother)
      next hnlt =>
        split
        next heq =>
          rw [keys_cons, heq]
          exact h
        next hne =>
          have hgt : entry.1 < key := by
            by_contra hngt
            exact hne (Std.Trichotomous.trichotomous key entry.1 hnlt hngt)
          refine List.pairwise_cons.mpr ⟨?_, ih hrest⟩
          intro other hother
          rcases mem_keys_insert.mp hother with rfl | hother
          · exact hgt
          · exact hfirst other hother

theorem pairwise_keys_ofList (pairs : List (κ × α)) : (keys (ofList pairs)).Pairwise (· < ·) := by
  induction pairs using List.reverseRecOn with
  | nil => exact .nil
  | append_singleton pairs pair ih =>
      rw [ofList_concat]
      exact pairwise_keys_insert ih

end Order

variable [Std.Asymm (α := κ) (· < ·)]

private theorem insert_eq_append {key : κ} {value : α} {entries : Entries κ α}
    (h : ∀ entry ∈ entries, entry.1 < key) :
    insert key value entries = entries ++ [(key, value)] := by
  induction entries with
  | nil => rfl
  | cons entry rest ih =>
      have hlt : entry.1 < key := h entry (by simp)
      have hnlt : ¬ key < entry.1 := Std.Asymm.asymm _ _ hlt
      have hne : key ≠ entry.1 := by
        rintro rfl
        exact hnlt hlt
      rw [insert, if_neg hnlt, if_neg hne, ih fun e he => h e (by simp [he])]
      rfl

private theorem foldl_insert_eq_append {pairs : List (κ × α)} {entries : Entries κ α}
    (h : (keys (entries ++ pairs)).Pairwise (· < ·)) :
    pairs.foldl (fun entries pair => insert pair.1 pair.2 entries) entries = entries ++ pairs := by
  induction pairs generalizing entries with
  | nil => simp
  | cons pair pairs ih =>
      have hbefore : ∀ entry ∈ entries, entry.1 < pair.1 := by
        intro entry hentry
        rw [keys, List.map_append, List.pairwise_append] at h
        exact h.2.2 _ (List.mem_map_of_mem hentry) _ (by simp)
      rw [List.foldl_cons, insert_eq_append hbefore]
      rw [ih (by simpa using h)]
      simp

theorem ofList_eq_self {entries : Entries κ α} (h : (keys entries).Pairwise (· < ·)) :
    ofList entries = entries :=
  foldl_insert_eq_append (by simpa using h)

end Insertion

end Orchestration.Entries

namespace Orchestration

/-- Where names differ, a look-up by the name of what is listed finds it. -/
theorem find?_eq_some_of_nodup {α : Type} {name : α → String} {xs : List α}
    (h : (xs.map name).Nodup) {x : α} (hx : x ∈ xs) :
    (xs.find? fun y => name y = name x) = some x := by
  have hfound : (xs.find? fun y => name y = name x).isSome := by
    rw [List.find?_isSome]
    exact ⟨x, hx, by simp⟩
  obtain ⟨y, hy⟩ := Option.isSome_iff_exists.mp hfound
  have hname : name y = name x := by simpa using List.find?_some hy
  rw [hy, List.inj_on_of_nodup_map h (List.mem_of_find?_eq_some hy) hx hname]

/-- The text is the smallest one with the property. -/
def Least (p : String → Prop) (text : String) : Prop := p text ∧ ∀ other, p other → text ≤ other

theorem Least.unique {p : String → Prop} {text other : String} (h : Least p text)
    (hother : Least p other) : text = other :=
  Std.le_antisymm (h.2 other hother.1) (hother.2 text h.1)

section Ascending

variable {texts : List String} {test : String → Bool} {text : String}

/-- Of texts that ascend, the first one that passes a test is the smallest one that does. -/
theorem least_of_find? (htexts : texts.Pairwise (· < ·)) (h : texts.find? test = some text) :
    Least (fun other => other ∈ texts ∧ test other = true) text := by
  obtain ⟨htest, before, after, rfl, hbefore⟩ := List.find?_eq_some_iff_append.mp h
  refine ⟨⟨by simp, htest⟩, ?_⟩
  rintro other ⟨hother, hpasses⟩
  rcases List.mem_append.mp hother with hother | hother
  · have hfails := hbefore other hother
    simp [hpasses] at hfails
  · rcases List.mem_cons.mp hother with rfl | hother
    · exact Std.le_refl _
    · have hafter := (List.pairwise_append.mp htexts).2.1
      exact Std.le_of_lt (List.rel_of_pairwise_cons hafter hother)

theorem find?_eq_some_iff_least (htexts : texts.Pairwise (· < ·)) :
    texts.find? test = some text ↔
      Least (fun other => other ∈ texts ∧ test other = true) text := by
  refine ⟨least_of_find? htexts, fun h => ?_⟩
  obtain ⟨found, hfound⟩ :=
    Option.isSome_iff_exists.mp (List.find?_isSome.mpr ⟨text, h.1.1, h.1.2⟩)
  rw [hfound, h.unique (least_of_find? htexts hfound)]

end Ascending

end Orchestration
