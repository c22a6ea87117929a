import Orchestration.Proofs.Renaming.Foreign
import Orchestration.Proofs.Scenario.Outline

namespace Orchestration

/-- The permutation exchanges two lists of scopes, place by place, and moves no other scope. -/
structure Exchanges (ρ : Equiv.Perm Scope) (scopes others : List Scope) : Prop where
  there : scopes.map ρ = others
  back : others.map ρ = scopes
  fixed : ∀ scope, scope ∉ scopes → scope ∉ others → ρ scope = scope

theorem exists_exchanges {scopes others : List Scope} (hlength : scopes.length = others.length)
    (hdistinct : (scopes ++ others).Nodup) : ∃ ρ, Exchanges ρ scopes others := by
  induction scopes generalizing others with
  | nil =>
      obtain rfl := List.length_eq_zero_iff.mp hlength.symm
      exact ⟨Equiv.refl Scope, rfl, rfl, fun _ _ _ => rfl⟩
  | cons x xs ih =>
      cases others with
      | nil => simp at hlength
      | cons y ys =>
          rw [List.nodup_append, List.nodup_cons, List.nodup_cons] at hdistinct
          obtain ⟨⟨hx, hxs⟩, ⟨hy, hys⟩, hne⟩ := hdistinct
          have hxy : x ≠ y := hne x (by simp) y (by simp)
          have hx' : x ∉ ys := fun hmem => hne x (by simp) x (by simp [hmem]) rfl
          have hy' : y ∉ xs := fun hmem => hne y (by simp [hmem]) y (by simp) rfl
          obtain ⟨ρ, hρ⟩ := ih (by simpa using hlength)
            (List.nodup_append.mpr
              ⟨hxs, hys, fun a ha b hb => hne a (by simp [ha]) b (by simp [hb])⟩)
          -- The heads are exchanged last; what stands in the tails is not among them.
          have htail : ∀ {zs ws : List Scope}, zs.map ρ = ws → x ∉ ws → y ∉ ws →
              zs.map (ρ.trans (Equiv.swap x y)) = ws := by
            rintro zs _ rfl hxw hyw
            refine List.map_congr_left fun z hz => Equiv.swap_apply_of_ne_of_ne ?_ ?_
            · rintro rfl
              exact hxw (List.mem_map_of_mem hz)
            · rintro rfl
              exact hyw (List.mem_map_of_mem hz)
          refine ⟨ρ.trans (Equiv.swap x y), ?_, ?_, ?_⟩
          · rw [List.map_cons, htail hρ.there hx' hy, Equiv.trans_apply, hρ.fixed x hx hx',
              Equiv.swap_apply_left]
          · rw [List.map_cons, htail hρ.back hx hy', Equiv.trans_apply, hρ.fixed y hy' hy,
              Equiv.swap_apply_right]
          · intro z hz hz'
            rw [List.mem_cons, not_or] at hz hz'
            rw [Equiv.trans_apply, hρ.fixed z hz.2 hz'.2]
            exact Equiv.swap_apply_of_ne_of_ne hz.1 hz'.1

/-- What the steps embed was built by calls, and the scopes that they copy for are new, in that none
of the taken scopes is in their trees. -/
structure Admissible (taken : List Scope) (steps : List Step) : Prop where
  embedded : ∀ c, .call c ∈ steps → ∀ inner, c.embedded? = some inner → inner.Reachable
  copies : ∀ scope, .call (.copy scope) ∈ steps → ∀ ids, scope.below ids ∉ taken

theorem Admissible.tail {taken : List Scope} {step : Step} {steps : List Step}
    (h : Admissible taken (step :: steps)) : Admissible taken steps :=
  ⟨fun c hc => h.embedded c (List.mem_cons_of_mem _ hc),
    fun scope hcopy => h.copies scope (List.mem_cons_of_mem _ hcopy)⟩

theorem Exchanges.keepsBelow {ρ : Equiv.Perm Scope} {scopes others : List Scope}
    (h : Exchanges ρ scopes others) {scope : Scope}
    (hnew : ∀ ids, scope.below ids ∉ scopes ++ others) : KeepsBelow ρ scope := by
  have hbelow : ∀ ids, ρ (scope.below ids) = scope.below ids := by
    intro ids
    have hids := hnew ids
    rw [List.mem_append, not_or] at hids
    exact h.fixed _ hids.1 hids.2
  intro ids
  have hscope : ρ scope = scope := hbelow []
  rw [hbelow, hscope]

theorem Exchanges.respects {ρ : Equiv.Perm Scope} {scopes others : List Scope}
    (h : Exchanges ρ scopes others) {steps : List Step}
    (hsteps : Admissible (scopes ++ others) steps)
    (hblind : ∀ query, .ask query ∈ steps → query.BlindTo ρ) :
    ∀ step ∈ steps, step.Respects ρ := by
  rintro (c | query) hstep
  · rintro scope rfl
    exact h.keepsBelow (hsteps.copies scope hstep)
  · exact hblind query hstep

namespace Scenario

/-- A scenario stays the same one in being built, unless the building goes on with a copy. -/
theorem scope_of_perform {s t : Scenario} {call : Call} {reply : Reply}
    (hcall : call.perform s = .ok (reply, t)) : t.scope = s.scope ∨ call = .copy t.scope := by
  cases Call.yields_of_perform hcall with
  | argument _ | constant _ | function _ _ _ | rewired _ _ => exact .inl rfl
  | copied hcopy => exact .inr (by rw [hcopy, copy_scope])

variable {s : Scenario} {taken : List Scope} {steps : List Step}

theorem Reachable.run (h : s.Reachable) (hsteps : Admissible taken steps) :
    (s.run steps).Reachable :=
  h.run_of_embedded hsteps.embedded

theorem scope_run_notMem {others : List Scope} (hs : s.scope ∉ others) (hothers : others ⊆ taken)
    (hsteps : Admissible taken steps) : (s.run steps).scope ∉ others := by
  induction steps generalizing s with
  | nil => exact hs
  | cons step steps ih =>
      refine ih ?_ hsteps.tail
      cases step with
      | ask query => exact hs
      | call c =>
          rw [Step.next, after]
          split
          next reply t hcall =>
            rcases scope_of_perform hcall with hscope | rfl
            · rwa [hscope]
            · exact fun hmem => hsteps.copies t.scope List.mem_cons_self [] (hothers hmem)
          next => exact hs

/-- The steps that are given what others gave out are refused, however far the building went on. -/
theorem Reachable.refused_of_cites (h : s.Reachable) {others : List Scope}
    (hs : s.scope ∉ others) (hothers : others ⊆ taken) (hsteps : Admissible taken steps)
    {step : Step} {scope : Scope} (hscope : scope ∈ others) (hcites : step.Cites scope) :
    step.Refused (s.run steps) := by
  refine Step.refused_of_cites (h.run hsteps).everywhere_intact.here.table ?_ hcites
  rintro rfl
  exact scope_run_notMem hs hothers hsteps hscope

/-- A scenario and its copy for new scopes are the same up to an exchange of their scopes: whatever
is called and asked, they give the same results and the same failures under that exchange, and have
the same text after every run. What one of them gave out, the other one refuses at any time,
wherever it stands in a call. -/
theorem Reachable.copy_equivalent (h : s.Reachable) {target : Scope}
    (hnew : (s.scopes ++ (s.copy target).scopes).Nodup) :
    (∀ style, ∃ text, s.toText style = .ok text ∧ (s.copy target).toText style = .ok text) ∧
    (∃ ρ : Equiv.Perm Scope, Exchanges ρ s.scopes (s.copy target).scopes ∧
      ∀ steps, Admissible (s.scopes ++ (s.copy target).scopes) steps →
        (∀ query, .ask query ∈ steps → query.BlindTo ρ) →
        (s.copy target).answers (steps.map (Step.rename ρ)) =
            (s.answers steps).map (Outcome.renamed ρ (Answer.rename ρ)) ∧
          ∀ style, ∃ text, (s.run steps).toText style = .ok text ∧
            ((s.copy target).run (steps.map (Step.rename ρ))).toText style = .ok text) ∧
    ∀ steps, Admissible (s.scopes ++ (s.copy target).scopes) steps → ∀ step : Step,
      (∀ scope ∈ s.scopes, step.Cites scope → step.Refused ((s.copy target).run steps)) ∧
        ∀ scope ∈ (s.copy target).scopes, step.Cites scope → step.Refused (s.run steps) := by
  obtain ⟨ρ, hρ⟩ := exists_exchanges (s.length_scopes_copy target).symm hnew
  have hcopy : s.copy target = s.rename ρ := h.everywhere_intact.copy_eq_rename hρ.there
  have hreachable : (s.copy target).Reachable := .called h (.copy target) (by simp [Call.embedded?])
  have htext : ∀ {t : Scenario}, t.Reachable → ∀ style, ∃ text, t.toText style = .ok text ∧
      (t.rename ρ).toText style = .ok text := by
    intro t ht style
    obtain ⟨text, htext⟩ :=
      ht.everywhere_intact.coherent.exists_text style
    exact ⟨text, htext, by rw [toText_rename ρ.injective, htext]; rfl⟩
  refine ⟨?_, ⟨ρ, hρ, ?_⟩, ?_⟩
  · rw [hcopy]
    exact htext h
  · intro steps hsteps hblind
    have hrespects := hρ.respects hsteps hblind
    rw [hcopy]
    refine ⟨answers_rename ρ.injective s hrespects, ?_⟩
    rw [run_rename ρ.injective s hrespects]
    exact htext (h.run hsteps)
  · have hdisjoint := List.disjoint_of_nodup_append hnew
    intro steps hsteps step
    constructor
    · intro scope hscope
      refine hreachable.refused_of_cites ?_ (List.subset_append_left _ _) hsteps hscope
      exact fun hmem => hdisjoint hmem (by simp [scopes_eq])
    · intro scope hscope
      refine h.refused_of_cites ?_ (List.subset_append_right _ _) hsteps hscope
      exact fun hmem => hdisjoint (by simp [scopes_eq]) hmem

section Sample

/-- Another job for the manager, launched after its first one and rewired, and a question. -/
def extension : List Step :=
  [.call (.startJob
    { job := "fping", entity := "server", arguments := [("count", .constant ⟨.root 1, "amount"⟩)] }
    { finished := [.own (.root 1) 1] }),
    .call (.setWait ⟨.root 1, 3, .startJob⟩ { launched := [.nested (.root 1) 0 0] }),
    .ask (.jobs fun launch => launch.job = "fping")]

theorem extension_admissible {taken : List Scope} : Admissible taken extension := by
  constructor
  · intro c hc inner hinner
    simp only [extension, List.mem_cons, Step.call.injEq, List.not_mem_nil, or_false,
      reduceCtorEq] at hc
    rcases hc with rfl | rfl <;> simp [Call.embedded?] at hinner
  · simp [extension]

theorem manager_copy_equivalent :
    (manager.scopes ++ (manager.copy (.root 2)).scopes).Nodup ∧
      (∃ ρ : Equiv.Perm Scope, Exchanges ρ manager.scopes (manager.copy (.root 2)).scopes ∧
        (manager.copy (.root 2)).answers (extension.map (Step.rename ρ)) =
          (manager.answers extension).map (Outcome.renamed ρ (Answer.rename ρ))) ∧
      (Step.call (.setWait ⟨.root 1, 3, .startJob⟩ {})).Refused
        ((manager.copy (.root 2)).run extension) := by
  have hnew : (manager.scopes ++ (manager.copy (.root 2)).scopes).Nodup := by decide
  obtain ⟨-, ⟨ρ, hρ, halike⟩, hrefused⟩ := manager_reachable.copy_equivalent hnew
  refine ⟨hnew, ⟨ρ, hρ, ?_⟩, ?_⟩
  · refine (halike extension extension_admissible ?_).1
    intro query hquery
    simp only [extension, List.mem_cons, reduceCtorEq, Step.ask.injEq, List.not_mem_nil,
      or_false, false_or] at hquery
    subst hquery
    exact fun launch => rfl
  · exact (hrefused extension extension_admissible _).1 (.root 1) (by decide) (.inl rfl)

end Sample

end Scenario

end Orchestration
