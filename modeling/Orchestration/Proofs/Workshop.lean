import Orchestration.Proofs.Pairing
import Orchestration.Proofs.Scenario.Calls
import Orchestration.Proofs.Scenario.Series
import Orchestration.Proofs.Traffic.Declarations

namespace Orchestration

namespace WaitClause

/-- The clause with listed functions behind those that it names. -/
def joinedBy (w : WaitClause) (launched finished : List Reference) : WaitClause where
  finished := joined w.finished finished
  launched := joined w.launched launched
  delay := w.delay

end WaitClause

/-- The ids stand for the functions, one for one. -/
def Stands (entries : List (Nat × Handle)) (ids : List Nat) (targets : List Reference) : Prop :=
  List.Forall₂ (fun id target => ∃ h, (id, h) ∈ entries ∧ h.reference = target) ids targets

section Stands

variable {entries : List (Nat × Handle)} {ids : List Nat} {targets : List Reference}

theorem exists_stands (h : ∀ id ∈ ids, id ∈ Entries.keys entries) :
    ∃ targets, Stands entries ids targets := by
  apply exists_forall₂
  intro id hid
  obtain ⟨⟨_, handle⟩, hentry, rfl⟩ := List.mem_map.mp (h id hid)
  exact ⟨handle.reference, handle, hentry, rfl⟩

theorem Stands.mono {more : List (Nat × Handle)} (h : Stands entries ids targets)
    (hsubset : ∀ entry ∈ entries, entry ∈ more) : Stands more ids targets :=
  h.imp fun _ _ ⟨handle, hentry, heq⟩ => ⟨handle, hsubset _ hentry, heq⟩

/-- The function of every id is among the targets. -/
theorem Stands.mem (h : Stands entries ids targets) (hnodup : (Entries.keys entries).Nodup)
    {id : Nat} {handle : Handle} (hentry : (id, handle) ∈ entries) (hid : id ∈ ids) :
    handle.reference ∈ targets := by
  obtain ⟨target, htarget, other, hother, rfl⟩ := exists_of_mem_left h hid
  have hsame := (Entries.find?_eq_some_of_mem hnodup hentry).symm.trans
    (Entries.find?_eq_some_of_mem hnodup hother)
  exact Option.some.inj hsame ▸ htarget

end Stands

namespace Composer

variable {c : Composer} {s t : Scenario} {handle : Handle}

/-- Of ids that are all declared, the composer loses none. -/
theorem map_reference_filterMap (hnodup : (Entries.keys c.declared).Nodup) {ids : List Nat}
    {targets : List Reference} (h : Stands c.declared ids targets) :
    (ids.filterMap c.handle?).map Handle.reference = targets := by
  induction h with
  | nil => rfl
  | cons hfirst _ ih =>
      obtain ⟨handle, hentry, rfl⟩ := hfirst
      have hfound : c.handle? _ = some handle := Entries.find?_eq_some_of_mem hnodup hentry
      rw [List.filterMap_cons_some hfound, List.map_cons, ih]

theorem extendWait_of_stands (hnodup : (Entries.keys c.declared).Nodup) (wait : WaitClause)
    {launched finished : List Nat} {launchedTargets finishedTargets : List Reference}
    (hlaunched : Stands c.declared launched launchedTargets)
    (hfinished : Stands c.declared finished finishedTargets) :
    c.extendWait wait launched finished = wait.joinedBy launchedTargets finishedTargets := by
  simp only [extendWait, map_reference_filterMap hnodup hlaunched,
    map_reference_filterMap hnodup hfinished, WaitClause.afterAllLaunched,
    WaitClause.afterAllFinished, WaitClause.foldl_addOnce, WaitClause.joinedBy]

end Composer

/-- A function that is to be declared: its outside id, the ids that it waits for beyond a clause,
and what it does. -/
structure Declaration where
  id : Nat
  launched : List Nat := []
  finished : List Nat := []
  wait : WaitClause := {}
  payload : Payload

namespace Declaration

def perform (d : Declaration) (c : Composer) (s : Scenario) :
    Except Failure (Handle × Composer × Scenario) :=
  c.declare s d.id d.launched d.finished d.wait d.payload

/-- What the function is to wait for, in terms of what was declared before it. -/
def Clause (d : Declaration) (made : List (Nat × Handle)) (wait : WaitClause) : Prop :=
  ∃ launched finished, Stands made d.launched launched ∧ Stands made d.finished finished ∧
    wait = d.wait.joinedBy launched finished

/-- The declaration adds its function to a scenario: its id is new, whatever it waits for has a
smaller id and is declared, and the scenario takes the function with the clause put together. -/
structure Accepted (d : Declaration) (made : List (Nat × Handle)) (s : Scenario) (handle : Handle)
    (t : Scenario) : Prop where
  new : d.id ∉ Entries.keys made
  earlier : ∀ id ∈ d.launched ++ d.finished, id < d.id ∧ id ∈ Entries.keys made
  added : ∃ wait, d.Clause made wait ∧ s.addFunction d.payload wait = .ok (handle, t)

variable {d : Declaration} {made more : List (Nat × Handle)} {c next : Composer} {s t : Scenario}
  {handle : Handle} {wait : WaitClause}

theorem Clause.mono (h : d.Clause made wait) (hsubset : ∀ entry ∈ made, entry ∈ more) :
    d.Clause more wait := by
  obtain ⟨launched, finished, hlaunched, hfinished, heq⟩ := h
  exact ⟨launched, finished, hlaunched.mono hsubset, hfinished.mono hsubset, heq⟩

theorem Clause.mem_launched (h : d.Clause made wait) (hnodup : (Entries.keys made).Nodup) {id : Nat}
    (hentry : (id, handle) ∈ made) (hid : id ∈ d.launched) : handle.reference ∈ wait.launched := by
  obtain ⟨launched, finished, hlaunched, -, rfl⟩ := h
  exact WaitClause.mem_joined.mpr (.inr (hlaunched.mem hnodup hentry hid))

theorem Clause.mem_finished (h : d.Clause made wait) (hnodup : (Entries.keys made).Nodup) {id : Nat}
    (hentry : (id, handle) ∈ made) (hid : id ∈ d.finished) : handle.reference ∈ wait.finished := by
  obtain ⟨launched, finished, -, hfinished, rfl⟩ := h
  exact WaitClause.mem_joined.mpr (.inr (hfinished.mem hnodup hentry hid))

theorem clause_iff (hnodup : (Entries.keys c.declared).Nodup)
    (hdeclared : ∀ id ∈ d.launched ++ d.finished, id ∈ Entries.keys c.declared) :
    d.Clause c.declared wait ↔ wait = c.extendWait d.wait d.launched d.finished := by
  constructor
  · rintro ⟨launched, finished, hlaunched, hfinished, rfl⟩
    exact (Composer.extendWait_of_stands hnodup d.wait hlaunched hfinished).symm
  · rintro rfl
    obtain ⟨launched, hlaunched⟩ := exists_stands fun id hid =>
      hdeclared id (List.mem_append_left _ hid)
    obtain ⟨finished, hfinished⟩ := exists_stands fun id hid =>
      hdeclared id (List.mem_append_right _ hid)
    exact ⟨launched, finished, hlaunched, hfinished,
      Composer.extendWait_of_stands hnodup d.wait hlaunched hfinished⟩

theorem perform_eq_ok_iff (hnodup : (Entries.keys c.declared).Nodup) :
    d.perform c s = .ok (handle, next, t) ↔
      d.Accepted c.declared s handle t ∧ next = ⟨Entries.insert d.id handle c.declared⟩ := by
  have hcheck : c.check d.id d.launched d.finished = .ok () ↔ d.id ∉ Entries.keys c.declared ∧
      ∀ id ∈ d.launched ++ d.finished, id < d.id ∧ id ∈ Entries.keys c.declared := by
    simp only [Composer.check, checkDeclaration_eq_ok_iff, Composer.handle?,
      ← Entries.find?_isSome_iff, Bool.not_eq_true]
  rw [perform, Composer.declare, Outcome.seq_eq_ok_iff, hcheck, Outcome.bind_eq_ok_iff]
  constructor
  · rintro ⟨⟨hnew, hearlier⟩, ⟨handle, t⟩, hadd, heq⟩
    cases heq
    have hclause := (clause_iff hnodup fun id hid => (hearlier id hid).2).mpr rfl
    exact ⟨⟨hnew, hearlier, _, hclause, hadd⟩, rfl⟩
  · rintro ⟨⟨hnew, hearlier, wait, hclause, hadd⟩, rfl⟩
    obtain rfl := (clause_iff hnodup fun id hid => (hearlier id hid).2).mp hclause
    exact ⟨⟨hnew, hearlier⟩, _, hadd, rfl⟩

theorem Accepted.mono (h : d.Accepted made s handle t) (hperm : made.Perm more) :
    d.Accepted more s handle t := by
  have hkeys : (Entries.keys made).Perm (Entries.keys more) := hperm.map Prod.fst
  obtain ⟨wait, hclause, hadd⟩ := h.added
  refine ⟨fun hmem => h.new (hkeys.mem_iff.mpr hmem), ?_, wait, ?_, hadd⟩
  · intro id hid
    exact ⟨(h.earlier id hid).1, hkeys.mem_iff.mp (h.earlier id hid).2⟩
  · exact hclause.mono fun entry hentry => hperm.mem_iff.mp hentry

/-- The function that is stored waits for everything that is listed, and all of that is in the same
scenario. -/
theorem Accepted.stores (h : d.Accepted made s handle t) (hnodup : (Entries.keys made).Nodup)
    (hs : s.Intact) :
    ∃ wait, d.Clause made wait ∧ t = s.withFunction d.payload wait ∧
      t.function? handle.id = some ⟨handle.id, d.payload, wait⟩ ∧
      handle = ⟨s.scope, s.ids.next, d.payload.kind⟩ ∧
      ∀ id other, (id, other) ∈ made →
        (id ∈ d.launched → other.scope = s.scope ∧ other.reference ∈ wait.launched) ∧
        (id ∈ d.finished → other.scope = s.scope ∧ other.reference ∈ wait.finished) := by
  obtain ⟨wait, hclause, hadd⟩ := h.added
  obtain ⟨hwait, hadmits, rfl, rfl⟩ := Scenario.addFunction_eq_ok_iff.mp hadd
  have hfunction : (s.withFunction d.payload wait).function? s.ids.next =
      some ⟨s.ids.next, d.payload, wait⟩ :=
    Scenario.function?_of_mem (hs.withFunction hwait hadmits).ids
      (List.mem_append_right _ (List.mem_singleton_self _))
  have hscope : ∀ {other : Handle}, other.reference ∈ wait.references → other.scope = s.scope := by
    intro other hmem
    obtain ⟨f, hnames⟩ := hwait _ hmem
    exact hnames.1
  refine ⟨wait, hclause, rfl, hfunction, rfl, ?_⟩
  intro id other hother
  constructor
  · intro hid
    have hmem := hclause.mem_launched hnodup hother hid
    exact ⟨hscope (List.mem_append_right _ hmem), hmem⟩
  · intro hid
    have hmem := hclause.mem_finished hnodup hother hid
    exact ⟨hscope (List.mem_append_left _ hmem), hmem⟩

end Declaration

/-- No call gives an id back. -/
theorem Scenario.next_le_next_after (s : Scenario) (c : Call) :
    s.ids.next ≤ (s.after c).ids.next := by
  rcases s.after_eq_or c with heq | ⟨reply, h⟩
  · rw [heq]
  · generalize s.after c = t at h
    cases h with
    | function _ _ _ => exact Nat.le_succ _
    | copied scope => rw [copy_ids]
    | _ => exact Nat.le_refl _

/-- Scenarios in the making, with the composer that declares functions in all of them. What was
declared is written down, in the order of time: the id and the handle that was handed out for it. -/
structure Workshop where
  scenarios : List Scenario := []
  composer : Composer := {}
  made : List (Nat × Handle) := []

namespace Workshop

/-- What can happen: a scenario that was built elsewhere comes in, one goes, a call is made on one,
or a function is declared in one. -/
inductive Step where
  | bring (s : Scenario)
  | release (place : Nat)
  | call (place : Nat) (c : Call)
  | declare (place : Nat) (d : Declaration)

/-- The workshop after a step. What is refused leaves it as it is. -/
def next (w : Workshop) : Step → Workshop
  | .bring s => { w with scenarios := w.scenarios ++ [s] }
  | .release place => { w with scenarios := w.scenarios.eraseIdx place }
  | .call place c =>
    match w.scenarios[place]? with
    | some s => { w with scenarios := w.scenarios.set place (s.after c) }
    | none => w
  | .declare place d =>
    match w.scenarios[place]? with
    | some s =>
      match d.perform w.composer s with
      | .ok (handle, composer, t) =>
        ⟨w.scenarios.set place t, composer, w.made ++ [(d.id, handle)]⟩
      | .error _ => w
    | none => w

/-- The scope is that of no scenario, past ones with declared functions included. -/
def Fresh (w : Workshop) (scope : Scope) : Prop :=
  (∀ s ∈ w.scenarios, s.scope ≠ scope) ∧ ∀ entry ∈ w.made, entry.2.scope ≠ scope

/-- Scenarios are built by calls, and each has a scope of its own. -/
def Allows (w : Workshop) : Step → Prop
  | .bring s => s.Reachable ∧ w.Fresh s.scope
  | .release _ => True
  | .call _ c => (∀ inner, c.embedded? = some inner → inner.Reachable) ∧
      ∀ scope, c = .copy scope → w.Fresh scope
  | .declare _ d => ∀ inner bindings, d.payload = .startScenario inner bindings → inner.Reachable

/-- The workshop after some steps from an empty one. -/
inductive Run : Workshop → Prop
  | opened : Run {}
  | step {w : Workshop} (run : Run w) (step : Step) (allowed : w.Allows step) : Run (w.next step)

/-- What every step keeps: the composer holds what was written down, and a handle of a scenario has
an id that the scenario has given out. -/
structure Kept (w : Workshop) : Prop where
  reachable : ∀ s ∈ w.scenarios, s.Reachable
  scopes : (w.scenarios.map Scenario.scope).Nodup
  ascends : (Entries.keys w.composer.declared).Pairwise (· < ·)
  declared : w.composer.declared.Perm w.made
  handles : (w.made.map Prod.snd).Nodup
  given : ∀ s ∈ w.scenarios, ∀ entry ∈ w.made, entry.2.scope = s.scope → entry.2.id < s.ids.next

namespace Kept

variable {w : Workshop} {s t : Scenario} {place : Nat}

theorem keys_nodup (h : w.Kept) : (Entries.keys w.composer.declared).Nodup :=
  h.ascends.imp Nat.ne_of_lt

theorem bring (h : w.Kept) (hs : s.Reachable) (hfresh : w.Fresh s.scope) :
    Kept { w with scenarios := w.scenarios ++ [s] } := by
  refine ⟨?_, ?_, h.ascends, h.declared, h.handles, ?_⟩
  · intro x hx
    rcases List.mem_append.mp hx with hx | hx
    · exact h.reachable x hx
    · exact List.mem_singleton.mp hx ▸ hs
  · rw [List.map_append, List.nodup_append]
    refine ⟨h.scopes, List.nodup_singleton _, ?_⟩
    rintro scope hscope _ hsingle rfl
    obtain ⟨x, hx, rfl⟩ := List.mem_map.mp hscope
    exact hfresh.1 x hx (List.mem_singleton.mp hsingle)
  · intro x hx entry hentry hscope
    rcases List.mem_append.mp hx with hx | hx
    · exact h.given x hx entry hentry hscope
    · exact absurd (List.mem_singleton.mp hx ▸ hscope) (hfresh.2 entry hentry)

theorem release (h : w.Kept) (place : Nat) :
    Kept { w with scenarios := w.scenarios.eraseIdx place } where
  reachable s hs := h.reachable s (List.mem_of_mem_eraseIdx hs)
  scopes := h.scopes.sublist ((List.eraseIdx_sublist _ _).map _)
  ascends := h.ascends
  declared := h.declared
  handles := h.handles
  given s hs := h.given s (List.mem_of_mem_eraseIdx hs)

/-- A scenario may grow, and it may take a new scope. -/
theorem replace (h : w.Kept) (hplace : w.scenarios[place]? = some s) (ht : t.Reachable)
    (hscope : t.scope = s.scope ∨ w.Fresh t.scope) (hnext : s.ids.next ≤ t.ids.next) :
    Kept { w with scenarios := w.scenarios.set place t } := by
  have hs : s ∈ w.scenarios := List.mem_of_getElem? hplace
  refine ⟨?_, ?_, h.ascends, h.declared, h.handles, ?_⟩
  · intro x hx
    rcases List.mem_or_eq_of_mem_set hx with hx | rfl
    · exact h.reachable x hx
    · exact ht
  · rw [List.map_set]
    -- Under its old scope the scenario changes no scope; a fresh one is nobody else's.
    rcases hscope with hsame | hfresh
    · have hscopes : (w.scenarios.map Scenario.scope)[place]? = some t.scope := by
        rw [List.getElem?_map, hplace, hsame, Option.map_some]
      obtain ⟨hlt, hget⟩ := List.getElem?_eq_some_iff.mp hscopes
      rw [← hget, List.set_getElem_self]
      exact h.scopes
    · refine h.scopes.set ?_
      intro hmem
      obtain ⟨x, hx, heq⟩ := List.mem_map.mp hmem
      exact hfresh.1 x hx heq
  · intro x hx entry hentry heq
    rcases List.mem_or_eq_of_mem_set hx with hx | rfl
    · exact h.given x hx entry hentry heq
    · rcases hscope with hsame | hfresh
      · exact Nat.lt_of_lt_of_le (h.given s hs entry hentry (heq.trans hsame)) hnext
      · exact absurd heq (hfresh.2 entry hentry)

/-- The next id of a scenario is in no handle yet. -/
theorem next_notMem (h : w.Kept) (hs : s ∈ w.scenarios) (kind : FunctionKind) :
    ⟨s.scope, s.ids.next, kind⟩ ∉ w.made.map Prod.snd := by
  intro hmem
  obtain ⟨entry, hentry, heq⟩ := List.mem_map.mp hmem
  have hlt := h.given s hs entry hentry (congrArg Handle.scope heq)
  rw [congrArg Handle.id heq] at hlt
  exact Nat.lt_irrefl _ hlt

/-- A new id is written down with a new handle of a scenario. -/
theorem record (h : w.Kept) {id : Nat} {handle : Handle} (ht : t ∈ w.scenarios)
    (hid : id ∉ Entries.keys w.composer.declared) (hhandle : handle ∉ w.made.map Prod.snd)
    (hscope : handle.scope = t.scope) (hlt : handle.id < t.ids.next) :
    Kept ⟨w.scenarios, ⟨Entries.insert id handle w.composer.declared⟩,
      w.made ++ [(id, handle)]⟩ := by
  refine ⟨h.reachable, h.scopes, Entries.pairwise_keys_insert h.ascends, ?_, ?_, ?_⟩
  · exact (Entries.insert_perm hid).trans
      ((h.declared.cons _).trans (List.perm_append_singleton _ _).symm)
  · rw [List.map_append, List.nodup_append]
    refine ⟨h.handles, List.nodup_singleton _, ?_⟩
    rintro other hother _ hsingle rfl
    obtain rfl := List.mem_singleton.mp hsingle
    exact hhandle hother
  · intro x hx entry hentry heq
    rcases List.mem_append.mp hentry with hentry | hentry
    · exact h.given x hx entry hentry heq
    · obtain rfl := List.mem_singleton.mp hentry
      -- The handle can be of one scenario only, as no two of them share a scope.
      obtain rfl : t = x := List.inj_on_of_nodup_map h.scopes ht hx (hscope.symm.trans heq)
      exact hlt

theorem call (h : w.Kept) {c : Call} (hallowed : w.Allows (.call place c)) :
    (w.next (.call place c)).Kept := by
  simp only [next]
  split
  next s hplace =>
    have hs := List.mem_of_getElem? hplace
    refine h.replace hplace ((h.reachable s hs).called c hallowed.1) ?_ (s.next_le_next_after c)
    by_cases hc : c.InPlace
    · exact .inl ((h.reachable s hs).everywhere_intact.here.extends_after hc).scope
    · obtain ⟨scope, hcopy⟩ : ∃ scope, c = .copy scope := by
        simpa [Call.InPlace] using hc
      subst hcopy
      have hscope : (s.after (.copy scope)).scope = scope := s.copy_scope scope
      exact .inr (hscope.symm ▸ hallowed.2 scope rfl)
  next => exact h

theorem declare (h : w.Kept) {d : Declaration} (hallowed : w.Allows (.declare place d)) :
    (w.next (.declare place d)).Kept := by
  simp only [next]
  split
  next s hplace =>
    split
    next handle composer t hperform =>
      have hs := List.mem_of_getElem? hplace
      obtain ⟨haccepted, rfl⟩ := (Declaration.perform_eq_ok_iff h.keys_nodup).mp hperform
      obtain ⟨wait, -, hadd⟩ := haccepted.added
      have ht : t.Reachable := (h.reachable s hs).addFunction hallowed hadd
      obtain ⟨-, -, rfl, rfl⟩ := Scenario.addFunction_eq_ok_iff.mp hadd
      have hmem : s.withFunction d.payload wait ∈
          w.scenarios.set place (s.withFunction d.payload wait) :=
        List.mem_set (List.getElem?_eq_some_iff.mp hplace).1 _
      have hreplaced := h.replace hplace ht (.inl rfl) (Nat.le_succ s.ids.next)
      exact hreplaced.record hmem haccepted.new (h.next_notMem hs _) rfl
        (Nat.lt_succ_self s.ids.next)
    next => exact h
  next => exact h

end Kept

theorem Run.kept {w : Workshop} (run : w.Run) : w.Kept := by
  induction run with
  | opened => constructor <;> simp [Entries.keys]
  | step run step allowed ih =>
      cases step with
      | bring s => exact ih.bring allowed.1 allowed.2
      | release place => exact ih.release place
      | call place c => exact ih.call allowed
      | declare place d => exact ih.declare allowed

theorem next_declare_of_ok {w : Workshop} {place : Nat} {s t : Scenario} {d : Declaration}
    {handle : Handle} {composer : Composer} (hplace : w.scenarios[place]? = some s)
    (h : d.perform w.composer s = .ok (handle, composer, t)) : w.next (.declare place d) =
      ⟨w.scenarios.set place t, composer, w.made ++ [(d.id, handle)]⟩ := by
  simp only [next, hplace, h]

theorem next_declare_of_error {w : Workshop} {place : Nat} {s : Scenario} {d : Declaration}
    {failure : Failure} (hplace : w.scenarios[place]? = some s)
    (h : d.perform w.composer s = .error failure) : w.next (.declare place d) = w := by
  simp only [next, hplace, h]

theorem Kept.handle?_eq_some_iff {w : Workshop} (h : w.Kept) {id : Nat} {handle : Handle} :
    w.composer.handle? id = some handle ↔ (id, handle) ∈ w.made := by
  rw [← h.declared.mem_iff]
  exact ⟨Entries.mem_of_find?, Entries.find?_eq_some_of_mem h.keys_nodup⟩

theorem Kept.perform_eq_ok_iff {w : Workshop} (h : w.Kept) {s t : Scenario} {d : Declaration}
    {handle : Handle} : (∃ composer, d.perform w.composer s = .ok (handle, composer, t)) ↔
      d.Accepted w.made s handle t := by
  simp only [Declaration.perform_eq_ok_iff h.keys_nodup, exists_and_left, exists_eq, and_true]
  exact ⟨fun haccepted => haccepted.mono h.declared,
    fun haccepted => haccepted.mono h.declared.symm⟩

/-- At every time, the composer gives out for an id the handle of the one declaration of that id,
and no two ids share a handle. A declaration is made exactly when its id is new, whatever it waits
for is smaller and declared, and the scenario takes the function; the function then waits for all
that is listed. A refused declaration leaves everything as it is. -/
theorem Run.declares {w : Workshop} (run : w.Run) :
    (Entries.keys w.made).Nodup ∧ (w.made.map Prod.snd).Nodup ∧
    (∀ id handle, w.composer.handle? id = some handle ↔ (id, handle) ∈ w.made) ∧
    (∃ entries, entries.Perm w.made ∧ (Entries.keys entries).Pairwise (· < ·) ∧
      w.composer.handles = entries.map Prod.snd) ∧
    ∀ place s, w.scenarios[place]? = some s → ∀ d : Declaration,
      (∀ handle t, (∃ composer, d.perform w.composer s = .ok (handle, composer, t)) ↔
        d.Accepted w.made s handle t) ∧
      (∀ handle composer t, d.perform w.composer s = .ok (handle, composer, t) →
        w.next (.declare place d) =
          ⟨w.scenarios.set place t, composer, w.made ++ [(d.id, handle)]⟩ ∧
        ∃ wait, d.Clause w.made wait ∧ t = s.withFunction d.payload wait ∧
          t.function? handle.id = some ⟨handle.id, d.payload, wait⟩ ∧
          handle = ⟨s.scope, s.ids.next, d.payload.kind⟩ ∧
          ∀ id other, (id, other) ∈ w.made →
            (id ∈ d.launched → other.scope = s.scope ∧ other.reference ∈ wait.launched) ∧
            (id ∈ d.finished → other.scope = s.scope ∧ other.reference ∈ wait.finished)) ∧
      ∀ failure, d.perform w.composer s = .error failure → w.next (.declare place d) = w := by
  have hkept := run.kept
  have hkeys : (Entries.keys w.made).Nodup :=
    (hkept.declared.map Prod.fst).nodup_iff.mp hkept.keys_nodup
  refine ⟨hkeys, hkept.handles, fun id handle => hkept.handle?_eq_some_iff,
    ⟨_, hkept.declared, hkept.ascends, rfl⟩, ?_⟩
  intro place s hplace d
  have hs := (hkept.reachable s (List.mem_of_getElem? hplace)).everywhere_intact.here
  refine ⟨fun handle t => hkept.perform_eq_ok_iff, ?_, fun failure => next_declare_of_error hplace⟩
  intro handle composer t hperform
  have haccepted := hkept.perform_eq_ok_iff.mp ⟨composer, hperform⟩
  exact ⟨next_declare_of_ok hplace hperform, haccepted.stores hkeys hs⟩

section Sample

def first : Scenario := .create (.root 0) "first" ""

def second : Scenario := .create (.root 1) "second" ""

def fourth : Declaration := { id := 4, payload := .stopJobs [] }

def seventh : Declaration := { id := 7, launched := [4], finished := [4], payload := .stopJobs [] }

/-- The seventh function is declared in the wrong scenario first, and then in the right one. -/
def shared : Workshop :=
  (((((({} : Workshop).next (.bring first)).next (.bring second)).next (.declare 0 fourth)).next
    (.declare 1 seventh)).next (.call 1 (.addConstant "size" (.ofNat 5)))).next (.declare 0 seventh)

theorem shared_run : shared.Run := by
  refine (((((Run.opened.step _ ?_).step _ ?_).step _ ?_).step _ ?_).step _ ?_).step _ ?_
  · exact ⟨.created _ _ _ _, by simp [Fresh]⟩
  · refine ⟨.created _ _ _ _, ?_, by simp [next]⟩
    simp [next, first, second, Scenario.create, Scope.root]
  · simp [Allows, fourth]
  · simp [Allows, seventh]
  · simp [Allows, Call.embedded?]
  · simp [Allows, seventh]

theorem shared_declares :
    shared.Run ∧ shared.composer.handle? 7 = some ⟨.root 0, 1, .stopJobs⟩ ∧
      (∃ s, shared.scenarios[1]? = some s ∧
        ∀ handle t, ¬ { seventh with id := 9 }.Accepted shared.made s handle t) ∧
      shared.next (.declare 0 fourth) = shared := by
  obtain ⟨-, -, hhandle, -, hdeclare⟩ := shared_run.declares
  refine ⟨shared_run, (hhandle _ _).mpr ?_, ?_, ?_⟩
  · exact List.mem_of_getElem? (i := 1) rfl
  · refine ⟨_, rfl, ?_⟩
    intro handle t haccepted
    obtain ⟨composer, hperform⟩ := ((hdeclare 1 _ rfl _).1 handle t).mpr haccepted
    cases hperform
  · exact (hdeclare 0 _ rfl fourth).2.2 (.duplicateId 4) rfl

end Sample

end Workshop

end Orchestration
