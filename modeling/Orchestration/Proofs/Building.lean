import Orchestration.Draft
import Orchestration.Proofs.Scenario.Reachable

/-!
What building steps end in. A step is judged by the scenario that it starts from: by what holds of
its value and of the scenario after it, and by the failures that it may end with instead. What was
noted before it makes no difference.
-/

namespace Orchestration

namespace WaitClause

variable {w : WaitClause} {targets added : List Reference} {target r : Reference}

theorem mem_addOnce : r ∈ addOnce targets target ↔ r ∈ targets ∨ r = target := by
  unfold addOnce
  split
  next hmem =>
    constructor
    · exact .inl
    · rintro (hr | rfl)
      · exact hr
      · exact hmem
  next => simp

theorem mem_foldl_addOnce : r ∈ added.foldl addOnce targets ↔ r ∈ targets ∨ r ∈ added := by
  induction added generalizing targets with
  | nil => simp
  | cons first rest ih => rw [List.foldl_cons, ih, mem_addOnce, List.mem_cons, or_assoc]

@[simp] theorem references_nil : ({} : WaitClause).references = [] := rfl

@[simp] theorem references_withDelay {delay : Duration} :
    (w.withDelay delay).references = w.references :=
  rfl

@[simp] theorem mem_references_afterLaunched :
    r ∈ (w.afterLaunched target).references ↔ r ∈ w.references ∨ r = target := by
  simp only [references, afterLaunched, List.mem_append, mem_addOnce, or_assoc]

@[simp] theorem mem_references_afterFinished :
    r ∈ (w.afterFinished target).references ↔ r ∈ w.references ∨ r = target := by
  simp only [references, afterFinished, List.mem_append, mem_addOnce]
  exact or_right_comm

@[simp] theorem mem_references_afterAllLaunched :
    r ∈ (w.afterAllLaunched added).references ↔ r ∈ w.references ∨ r ∈ added := by
  simp only [references, afterAllLaunched, List.mem_append, mem_foldl_addOnce, or_assoc]

@[simp] theorem mem_references_afterAllFinished :
    r ∈ (w.afterAllFinished added).references ↔ r ∈ w.references ∨ r ∈ added := by
  simp only [references, afterAllFinished, List.mem_append, mem_foldl_addOnce]
  exact or_right_comm

end WaitClause

namespace Scenario

variable {s : Scenario} {payload : Payload} {wait : WaitClause}

/-- A handle names the function that it was handed out for. -/
theorem namesOwn_withFunction (h : (s.withFunction payload wait).Intact) :
    (s.withFunction payload wait).NamesOwn payload.kind (.own s.scope s.ids.next) :=
  h.namesOwn (f := ⟨s.ids.next, payload, wait⟩)
    (List.mem_append_right _ (List.mem_singleton_self _))

theorem NamesOwn.resolves {kind : FunctionKind} {r : Reference} (h : s.NamesOwn kind r) :
    s.Resolves r := by
  obtain ⟨-, f, hf, -⟩ := h
  exact ⟨f, hf⟩

end Scenario

namespace Build

open Scenario

variable {α β : Type}

/-- Whatever was noted before, the step has one outcome from the scenario: it yields a value and
goes on with a scenario that satisfy the condition, or it fails for one of the reasons. -/
inductive Ends (step : Build α) (s : Scenario) (refused : Failure → Prop)
    (Q : α → Scenario → Prop) : Prop
  | yields {value : α} {t : Scenario} (hQ : Q value t)
      (hstep : ∀ journal, ∃ noted, step ⟨s, journal⟩ = (.ok value, ⟨t, noted⟩))
  | fails {failure : Failure} (hfailure : refused failure)
      (hstep : ∀ journal, ∃ draft, step ⟨s, journal⟩ = (.error failure, draft))

variable {s : Scenario} {refused : Failure → Prop} {P Q : α → Scenario → Prop}
  {R : β → Scenario → Prop}

theorem Ends.imp {step : Build α} (h : step.Ends s refused P)
    (himp : ∀ value t, P value t → Q value t) : step.Ends s refused Q := by
  cases h with
  | yields hP hstep => exact .yields (himp _ _ hP) hstep
  | fails hfailure hstep => exact .fails hfailure hstep

theorem Ends.bind {step : Build α} {next : α → Build β} (h : step.Ends s refused P)
    (hnext : ∀ value t, P value t → (next value).Ends t refused R) :
    (step >>= next).Ends s refused R := by
  cases h with
  | @yields value t hP hstep =>
      cases hnext value t hP with
      | yields hR hnext =>
          refine .yields hR fun journal => ?_
          obtain ⟨noted, hstep⟩ := hstep journal
          obtain ⟨more, hnext⟩ := hnext noted
          exact ⟨more, by simp only [Bind.bind, Build.bind, hstep, hnext]⟩
      | fails hfailure hnext =>
          refine .fails hfailure fun journal => ?_
          obtain ⟨noted, hstep⟩ := hstep journal
          obtain ⟨draft, hnext⟩ := hnext noted
          exact ⟨draft, by simp only [Bind.bind, Build.bind, hstep, hnext]⟩
  | fails hfailure hstep =>
      refine .fails hfailure fun journal => ?_
      obtain ⟨draft, hstep⟩ := hstep journal
      exact ⟨draft, by simp only [Bind.bind, Build.bind, hstep]⟩

theorem ends_pure {value : α} (h : Q value s) : (pure value : Build α).Ends s refused Q :=
  .yields h fun journal => ⟨journal, rfl⟩

theorem ends_ofExcept {outcome : Except Failure α} (hok : ∀ value, outcome = .ok value → Q value s)
    (herror : ∀ failure, outcome = .error failure → refused failure) :
    (ofExcept outcome).Ends s refused Q := by
  cases outcome with
  | ok value => exact .yields (hok value rfl) fun journal => ⟨journal, rfl⟩
  | error failure => exact .fails (herror failure rfl) fun journal => ⟨⟨s, journal⟩, rfl⟩

theorem ends_note {event : Event} {Q : Unit → Scenario → Prop} (h : Q () s) :
    (note event).Ends s refused Q :=
  .yields h fun _ => ⟨_, rfl⟩

theorem ends_scenario {Q : Scenario → Scenario → Prop} (h : Q s s) :
    scenario.Ends s refused Q :=
  .yields h fun journal => ⟨journal, rfl⟩

theorem ends_nextScope {Q : Scope → Scenario → Prop} (h : Q (s.scope.child s.ids.next) s) :
    nextScope.Ends s refused Q :=
  .yields h fun journal => ⟨journal, rfl⟩

theorem ends_call {f : Scenario → Except Failure (α × Scenario)}
    (hok : ∀ value t, f s = .ok (value, t) → Q value t)
    (herror : ∀ failure, f s = .error failure → refused failure) :
    (call f).Ends s refused Q := by
  cases houtcome : f s with
  | ok result =>
      exact .yields (hok result.1 result.2 houtcome) fun journal =>
        ⟨journal, by simp only [call, houtcome]⟩
  | error failure =>
      exact .fails (herror failure houtcome) fun journal =>
        ⟨⟨s, journal⟩, by simp only [call, houtcome]⟩

theorem ends_noteAdded {handle : Handle} {Q : Unit → Scenario → Prop} (h : Q () s) :
    (noteAdded handle).Ends s refused Q :=
  .yields h fun _ => ⟨_, rfl⟩

theorem ends_argument {name description : String} (hs : s.Everywhere Intact)
    (hname : name ∉ s.parameters.uses.map Prod.fst) :
    (argument name description).Ends s refused fun ref t =>
      ref = ⟨s.parameters.scope, name⟩ ∧ t = s.withArgument ⟨name, description, none⟩ ∧
        t.Everywhere Intact := by
  have hadd : s.addArgument name description = .ok (⟨s.parameters.scope, name⟩,
      s.withArgument ⟨name, description, none⟩) :=
    addArgument_eq_ok_iff.mpr ⟨hname, rfl, rfl⟩
  apply ends_call
  · intro ref t hok
    rw [hadd] at hok
    cases hok
    exact ⟨rfl, rfl, hs.withArgument hname⟩
  · intro failure herror
    rw [hadd] at herror
    cases herror

/-- Adding a function fails only by the check of its payload, if the clause names functions that are
there. -/
theorem ends_admitted {payload : Payload} {wait : WaitClause}
    (hwait : ∀ r ∈ wait.references, s.Resolves r)
    (hrefused : ∀ failure, s.checkPayload payload = .error failure → refused failure) :
    (add payload wait).Ends s refused fun handle t =>
      s.Admits payload ∧ handle = ⟨s.scope, s.ids.next, payload.kind⟩ ∧
        t = s.withFunction payload wait := by
  have hcheckWait : s.checkWait wait = .ok () := checkWait_eq_ok_iff.mpr hwait
  have hadd : (call fun s => s.addFunction payload wait).Ends s refused fun handle t =>
      s.Admits payload ∧ handle = ⟨s.scope, s.ids.next, payload.kind⟩ ∧
        t = s.withFunction payload wait := by
    apply ends_call
    · intro handle t hok
      obtain ⟨-, hadmits, rfl, rfl⟩ := addFunction_eq_ok_iff.mp hok
      exact ⟨hadmits, rfl, rfl⟩
    · intro failure herror
      cases hcheck : s.checkPayload payload with
      | ok _ => simp [addFunction, hcheckWait, hcheck, bind, Except.bind, pure, Except.pure]
          at herror
      | error reason =>
          simp only [addFunction, hcheckWait, hcheck, bind, Except.bind,
            Except.error.injEq] at herror
          exact herror ▸ hrefused reason hcheck
  exact hadd.bind fun handle t hQ =>
    (ends_noteAdded hQ).bind fun _ _ hQ => ends_pure hQ

theorem ends_add {payload : Payload} {wait : WaitClause} (hs : s.Everywhere Intact)
    (hwait : ∀ r ∈ wait.references, s.Resolves r)
    (hembedded : ∀ inner bindings, payload = .startScenario inner bindings →
      inner.Everywhere Intact)
    (hrefused : ∀ failure, s.checkPayload payload = .error failure → refused failure) :
    (add payload wait).Ends s refused fun handle t =>
      handle = ⟨s.scope, s.ids.next, payload.kind⟩ ∧ t = s.withFunction payload wait ∧
        t.Everywhere Intact := by
  refine (ends_admitted hwait hrefused).imp ?_
  rintro _ _ ⟨hadmits, rfl, rfl⟩
  exact ⟨rfl, rfl, hs.withFunction hwait hadmits hembedded⟩

/-- A launch whose values are there is refused only by the registry. -/
theorem check_of_checkPayload {launch : JobLaunch} {failure : Failure}
    (hvalues : ∀ v ∈ launch.values, s.HoldsAll v)
    (herror : s.checkPayload (.startJob launch) = .error failure) :
    s.registry.check launch = .error failure := by
  have hheld : launch.values.forM s.checkValue = .ok () :=
    Outcome.forM_eq_ok_iff.mpr fun v hv => checkValue_eq_ok_iff.mpr (hvalues v hv)
  cases hcheck : s.registry.check launch with
  | ok _ => simp [checkPayload, hcheck, hheld, bind, Except.bind] at herror
  | error reason => simpa [checkPayload, hcheck, bind, Except.bind] using herror

theorem ends_startJob {launch : JobLaunch} {wait : WaitClause} (hs : s.Everywhere Intact)
    (hwait : ∀ r ∈ wait.references, s.Resolves r) (hvalues : ∀ v ∈ launch.values, s.HoldsAll v)
    (hrefused : ∀ failure, s.registry.check launch = .error failure → refused failure) :
    (startJob launch wait).Ends s refused fun handle t =>
      handle = ⟨s.scope, s.ids.next, .startJob⟩ ∧ t = s.withFunction (.startJob launch) wait ∧
        t.Everywhere Intact := by
  apply ends_add hs hwait
  · intro inner bindings hpayload
    cases hpayload
  · exact fun failure herror => hrefused failure (check_of_checkPayload hvalues herror)

theorem ends_stopJobs {targets : List Handle} {wait : WaitClause} (hs : s.Everywhere Intact)
    (hwait : ∀ r ∈ wait.references, s.Resolves r)
    (htargets : ∀ target ∈ targets, s.NamesOwn .startJob target.reference) :
    (stopJobs targets wait).Ends s refused fun handle t =>
      handle = ⟨s.scope, s.ids.next, .stopJobs⟩ ∧
        t = s.withFunction (.stopJobs (targets.map Handle.reference)) wait ∧
        t.Everywhere Intact := by
  have hadmits : s.Admits (.stopJobs (targets.map Handle.reference)) :=
    List.forall_mem_map.mpr htargets
  apply ends_add hs hwait
  · intro inner bindings hpayload
    cases hpayload
  · intro failure herror
    rw [checkPayload_eq_ok_iff.mpr hadmits] at herror
    cases herror

theorem ends_declare {c : Composer} {id : Nat} {launched finished : List Nat} {wait : WaitClause}
    {payload : Payload} {Q : Composer → Scenario → Prop}
    (hrefused : ∀ failure, c.check id launched finished = .error failure → refused failure)
    (hready : c.check id launched finished = .ok () →
      (∀ r ∈ (c.extendWait wait launched finished).references, s.Resolves r) ∧ s.Admits payload ∧
        Q ⟨Entries.insert id ⟨s.scope, s.ids.next, payload.kind⟩ c.declared⟩
          (s.withFunction payload (c.extendWait wait launched finished))) :
    (declare c id launched finished wait payload).Ends s refused Q := by
  unfold declare
  refine Ends.bind (P := fun result t => Q result.2 t) ?_ fun result t hQ =>
    (ends_noteAdded hQ).bind fun _ _ hQ => ends_pure hQ
  cases hcheck : c.check id launched finished with
  | error failure =>
      apply ends_call
      · intro result t hok
        simp [Composer.declare, hcheck, bind, Except.bind] at hok
      · intro reason herror
        simp only [Composer.declare, hcheck, bind, Except.bind, Except.error.injEq] at herror
        exact herror ▸ hrefused failure hcheck
  | ok _ =>
      obtain ⟨hwait, hadmits, hQ⟩ := hready hcheck
      have hadd := Scenario.addFunction_eq_ok_iff.mpr ⟨hwait, hadmits, rfl, rfl⟩
      apply ends_call
      · intro result t hok
        simp only [Composer.declare, hcheck, hadd, bind, Except.bind, pure, Except.pure,
          Except.ok.injEq, Prod.mk.injEq] at hok
        obtain ⟨rfl, rfl⟩ := hok
        exact hQ
      · intro failure herror
        simp [Composer.declare, hcheck, hadd, bind, Except.bind, pure, Except.pure] at herror

/-- A scenario that is built on the side is the one that is built on its own. -/
theorem ends_aside {start : Scenario} {steps : Build Unit} {Q : Unit → Scenario → Prop}
    (h : steps.Ends start refused Q) :
    (aside start steps).Ends s refused fun inner t =>
      (run start steps).1 = .ok inner ∧ Q () inner ∧ t = s := by
  cases h with
  | @yields _ inner hQ hsteps =>
      have hrun : (run start steps).1 = .ok inner := by
        obtain ⟨noted, hsteps⟩ := hsteps []
        simp only [run, hsteps]
      refine .yields ⟨hrun, hQ, rfl⟩ fun journal => ?_
      obtain ⟨noted, hsteps⟩ := hsteps journal
      exact ⟨noted, by simp only [aside, hsteps]⟩
  | fails hfailure hsteps =>
      refine .fails hfailure fun journal => ?_
      obtain ⟨draft, hsteps⟩ := hsteps journal
      exact ⟨⟨s, draft.journal⟩, by simp only [aside, hsteps]⟩

theorem ends_foldlM {f : β → α → Build β} {xs : List α} (inv : List α → β → Scenario → Prop)
    (hstep : ∀ before x after b t, xs = before ++ x :: after → inv before b t →
      (f b x).Ends t refused (inv (before ++ [x])))
    {b : β} (h : inv [] b s) : (xs.foldlM f b).Ends s refused (inv xs) := by
  -- The induction is on what is left, what is done already standing in front of it.
  suffices hsuffix : ∀ before after, xs = before ++ after → ∀ b t, inv before b t →
      (after.foldlM f b).Ends t refused (inv xs) from hsuffix [] xs rfl b s h
  intro before after hxs
  induction after generalizing before with
  | nil =>
      intro b t hinv
      rw [List.append_nil] at hxs
      exact ends_pure (hxs ▸ hinv)
  | cons x after ih =>
      intro b t hinv
      rw [List.foldlM_cons]
      apply (hstep before x after b t hxs hinv).bind
      exact ih (before ++ [x]) (by simpa using hxs)

theorem ends_forM {f : α → Build Unit} {xs : List α} (inv : List α → Scenario → Prop)
    (hstep : ∀ before x after t, xs = before ++ x :: after → inv before t →
      (f x).Ends t refused fun _ => inv (before ++ [x]))
    (h : inv [] s) : (xs.forM f).Ends s refused fun _ => inv xs := by
  suffices hsuffix : ∀ before after, xs = before ++ after → ∀ t, inv before t →
      (after.forM f).Ends t refused fun _ => inv xs from hsuffix [] xs rfl s h
  intro before after hxs
  induction after generalizing before with
  | nil =>
      intro t hinv
      rw [List.append_nil] at hxs
      exact ends_pure (hxs ▸ hinv)
  | cons x after ih =>
      intro t hinv
      apply (hstep before x after t hxs hinv).bind
      exact fun _ u hu => ih (before ++ [x]) (by simpa using hxs) u hu

theorem ends_extractJobs {predicate : JobLaunch → Bool} {Q : List ExtractedJob → Scenario → Prop}
    (h : Q (s.extractJobs predicate) s) : (extractJobs predicate).Ends s refused Q := by
  refine (ends_scenario (Q := fun value t => value = s ∧ t = s) ⟨rfl, rfl⟩).bind ?_
  rintro _ s ⟨rfl, rfl⟩
  refine Ends.bind (P := fun _ t => t = s) (ends_forM (fun _ t => t = s) ?_ rfl) ?_
  · rintro - m - t - rfl
    split
    · exact ends_note rfl
    · exact ends_pure rfl
  · rintro - _ rfl
    exact (ends_note h).bind fun _ _ hQ => ends_pure hQ

theorem Ends.run {steps : Build Unit} {Q : Unit → Scenario → Prop}
    (h : steps.Ends s refused Q) :
    (∃ t, (run s steps).1 = .ok t ∧ Q () t) ∨
      ∃ failure, (run s steps).1 = .error failure ∧ refused failure := by
  cases h with
  | @yields _ t hQ hsteps =>
      obtain ⟨noted, hsteps⟩ := hsteps []
      exact .inl ⟨t, by simp only [Build.run, hsteps], hQ⟩
  | @fails failure hfailure hsteps =>
      obtain ⟨draft, hsteps⟩ := hsteps []
      exact .inr ⟨failure, by simp only [Build.run, hsteps], hfailure⟩

end Build

end Orchestration
