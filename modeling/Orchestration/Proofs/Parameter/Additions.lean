import Orchestration.Proofs.Entries
import Orchestration.Proofs.Scenario.Growth

namespace Orchestration

/-- A call that adds a parameter to a table. -/
inductive Addition where
  | argument (name description : String) (default : Option Json)
  | constant (name : String) (value : Json)

namespace Addition

def name : Addition → String
  | .argument name _ _ => name
  | .constant name _ => name

def kind : Addition → ParameterKind
  | .argument _ _ _ => .argument
  | .constant _ _ => .constant

def argument? : Addition → Option Argument
  | .argument name description default => some ⟨name, description, default⟩
  | .constant _ _ => none

def constant? : Addition → Option Constant
  | .argument _ _ _ => none
  | .constant name value => some ⟨name, value⟩

/-- What the call returns if it is accepted. -/
def reference (scope : Scope) : Addition → ValueReference
  | .argument name _ _ => .argument ⟨scope, name⟩
  | .constant name _ => .constant ⟨scope, name⟩

def perform (t : ParameterTable) :
    Addition → Except Failure (ValueReference × ParameterTable)
  | .argument name description default => do
    let (ref, t) ← t.addArgument name description default
    return (.argument ref, t)
  | .constant name value => do
    let (ref, t) ← t.addConstant name value
    return (.constant ref, t)

end Addition

namespace ParameterTable

section Lookup

variable {t : ParameterTable}

theorem argument?_eq_some (h : (t.uses.map Prod.fst).Nodup) {a : Argument}
    (ha : a ∈ t.arguments) : t.argument? a.name = some a := by
  rw [uses_names, List.nodup_append] at h
  exact find?_eq_some_of_nodup h.1 ha

theorem constant?_eq_some (h : (t.uses.map Prod.fst).Nodup) {c : Constant}
    (hc : c ∈ t.constants) : t.constant? c.name = some c := by
  rw [uses_names, List.nodup_append] at h
  exact find?_eq_some_of_nodup h.2.1 hc

/-- A name of one kind is not a name of the other kind. -/
theorem disjoint_names (h : (t.uses.map Prod.fst).Nodup) {name : String}
    (ha : (t.argument? name).isSome) : t.constant? name = none := by
  rw [uses_names, List.nodup_append] at h
  rw [← Option.not_isSome_iff_eq_none, constant?_isSome_iff]
  exact fun hc => h.2.2 name (argument?_isSome_iff.mp ha) name hc rfl

end Lookup

/-- The table that takes up a call. -/
def adding (t : ParameterTable) : Addition → ParameterTable
  | .argument name description default =>
    { t with arguments := t.arguments ++ [⟨name, description, default⟩] }
  | .constant name value => { t with constants := t.constants ++ [⟨name, value⟩] }

/-- The table of some calls that were accepted. -/
def ofAdditions (scope : Scope) (owner : String) (taken : List Addition) : ParameterTable where
  scope := scope
  owner := owner
  arguments := taken.filterMap Addition.argument?
  constants := taken.filterMap Addition.constant?

/-- The table shows for a name what a call gave to it, and nothing of the other kind. -/
def Shows (t : ParameterTable) : Addition → Prop
  | .argument name description default =>
    t.argument? name = some ⟨name, description, default⟩ ∧ t.constant? name = none
  | .constant name value => t.constant? name = some ⟨name, value⟩ ∧ t.argument? name = none

/-- The reference resolves in the table. -/
def Resolves (t : ParameterTable) : ValueReference → Prop
  | .argument ref => t.resolvesArgument ref = true
  | .constant ref => (t.constantValue? ref).isSome = true
  | .function _ => False

theorem perform_eq (t : ParameterTable) (a : Addition) :
    a.perform t = match t.use? a.name with
      | some existing => .error (.duplicateName t.owner a.name existing)
      | none => .ok (a.reference t.scope, t.adding a) := by
  cases a with
  | argument name description default =>
      simp only [Addition.perform, addArgument, ensureUnused, Addition.name]
      cases t.use? name <;> rfl
  | constant name value =>
      simp only [Addition.perform, addConstant, ensureUnused, Addition.name]
      cases t.use? name <;> rfl

section Additions

variable {scope : Scope} {owner : String} {taken : List Addition}

theorem ofAdditions_concat (taken : List Addition) (a : Addition) :
    ofAdditions scope owner (taken ++ [a]) = (ofAdditions scope owner taken).adding a := by
  cases a <;> simp [ofAdditions, adding, List.filterMap_append, Addition.argument?,
    Addition.constant?]

/-- Every call uses its name for its kind, and nothing else uses a name. -/
theorem uses_ofAdditions (taken : List Addition) :
    (ofAdditions scope owner taken).uses.Perm (taken.map fun a => (a.name, a.kind)) := by
  induction taken with
  | nil => exact .refl _
  | cons a taken ih =>
      cases a with
      | argument name description default => exact ih.cons _
      | constant name value => exact List.perm_middle.trans (ih.cons _)

theorem names_ofAdditions (taken : List Addition) :
    ((ofAdditions scope owner taken).uses.map Prod.fst).Perm (taken.map Addition.name) := by
  have hnames : ((ofAdditions scope owner taken).uses.map Prod.fst).Perm
      ((taken.map fun a => (a.name, a.kind)).map Prod.fst) := (uses_ofAdditions taken).map _
  rwa [List.map_map] at hnames

variable (hnames : (taken.map Addition.name).Nodup)

include hnames

theorem nodup_names_ofAdditions : ((ofAdditions scope owner taken).uses.map Prod.fst).Nodup :=
  (names_ofAdditions taken).nodup_iff.mpr hnames

theorem shows_ofAdditions {a : Addition} (ha : a ∈ taken) :
    (ofAdditions scope owner taken).Shows a := by
  have hnodup : ((ofAdditions scope owner taken).uses.map Prod.fst).Nodup :=
    nodup_names_ofAdditions hnames
  cases a with
  | argument name description default =>
      have hmem : ⟨name, description, default⟩ ∈ (ofAdditions scope owner taken).arguments :=
        List.mem_filterMap.mpr ⟨_, ha, rfl⟩
      have hfound := argument?_eq_some hnodup hmem
      exact ⟨hfound, disjoint_names hnodup (Option.isSome_of_eq_some hfound)⟩
  | constant name value =>
      have hmem : ⟨name, value⟩ ∈ (ofAdditions scope owner taken).constants :=
        List.mem_filterMap.mpr ⟨_, ha, rfl⟩
      have hfound := constant?_eq_some hnodup hmem
      refine ⟨hfound, Option.not_isSome_iff_eq_none.mp fun hargument => ?_⟩
      rw [disjoint_names hnodup hargument] at hfound
      cases hfound

theorem use?_ofAdditions {a : Addition} (ha : a ∈ taken) :
    (ofAdditions scope owner taken).use? a.name = some a.kind := by
  have hshows : (ofAdditions scope owner taken).Shows a := shows_ofAdditions hnames ha
  cases a with
  | argument name description default => simp [use?, Addition.name, hshows.1, Addition.kind]
  | constant name value => simp [use?, Addition.name, hshows.1, hshows.2, Addition.kind]

omit hnames in
theorem resolvesArgument_ofAdditions {ref : ArgumentRef} :
    (ofAdditions scope owner taken).resolvesArgument ref = true ↔
      ref.scope = scope ∧ ∃ description default,
        .argument ref.name description default ∈ taken := by
  rw [resolvesArgument, Bool.and_eq_true, decide_eq_true_eq, argument?_isSome_iff]
  refine and_congr_right fun _ => ?_
  constructor
  · intro hname
    obtain ⟨a, ha, heq⟩ := List.mem_map.mp hname
    obtain ⟨addition, hmem, hargument⟩ := List.mem_filterMap.mp ha
    cases addition with
    | argument name description default =>
        cases hargument
        exact ⟨description, default, heq ▸ hmem⟩
    | constant name value => cases hargument
  · rintro ⟨description, default, hmem⟩
    exact List.mem_map.mpr ⟨_, List.mem_filterMap.mpr ⟨_, hmem, rfl⟩, rfl⟩

theorem constantValue?_ofAdditions {ref : ConstantRef} {value : Json} :
    (ofAdditions scope owner taken).constantValue? ref = some value ↔
      ref.scope = scope ∧ .constant ref.name value ∈ taken := by
  rw [constantValue?, Option.ite_none_right_eq_some, Option.map_eq_some_iff]
  refine and_congr_right fun _ => ?_
  constructor
  · rintro ⟨c, hc, rfl⟩
    have hname : c.name = ref.name := by simpa using List.find?_some hc
    obtain ⟨addition, hmem, hconstant⟩ := List.mem_filterMap.mp (List.mem_of_find?_eq_some hc)
    cases addition with
    | argument name description default => cases hconstant
    | constant name value =>
        cases hconstant
        exact hname ▸ hmem
  · intro hmem
    have hshows : (ofAdditions scope owner taken).Shows (.constant ref.name value) :=
      shows_ofAdditions hnames hmem
    exact ⟨_, hshows.1, rfl⟩

end Additions

end ParameterTable

/-- A table in the making, with the calls that it accepted, in the order of time. -/
structure TableHistory where
  table : ParameterTable
  taken : List Addition := []

namespace TableHistory

/-- The history goes on with a call. A call that is refused leaves it as it is. -/
def next (w : TableHistory) (a : Addition) : TableHistory :=
  match a.perform w.table with
  | .ok (_, t) => ⟨t, w.taken ++ [a]⟩
  | .error _ => w

/-- The history of an empty table after some calls. -/
def after (scope : Scope) (owner : String) (calls : List Addition) : TableHistory :=
  calls.foldl next { table := { scope := scope, owner := owner } }

/-- What every call keeps: the table is what the accepted calls make of it, and no name was accepted
twice. -/
structure Kept (scope : Scope) (owner : String) (w : TableHistory) : Prop where
  table : w.table = .ofAdditions scope owner w.taken
  names : (w.taken.map Addition.name).Nodup

variable {scope : Scope} {owner : String} {w : TableHistory} {a : Addition}

theorem next_of_ok {ref : ValueReference} {t : ParameterTable}
    (h : a.perform w.table = .ok (ref, t)) : w.next a = ⟨t, w.taken ++ [a]⟩ := by
  rw [next, h]

theorem next_of_error {failure : Failure} (h : a.perform w.table = .error failure) :
    w.next a = w := by
  rw [next, h]

namespace Kept

variable (h : w.Kept scope owner)

include h

theorem perform_of_new (hname : a.name ∉ w.taken.map Addition.name) :
    a.perform w.table = .ok (a.reference scope, w.table.adding a) := by
  have hunused : w.table.use? a.name = none := by
    rw [ParameterTable.use?_eq_none_iff, h.table]
    exact fun hmem => hname ((ParameterTable.names_ofAdditions _).mem_iff.mp hmem)
  rw [ParameterTable.perform_eq, hunused, h.table]
  rfl

theorem perform_of_used {b : Addition} (hb : b ∈ w.taken) (hname : b.name = a.name) :
    a.perform w.table = .error (.duplicateName owner a.name b.kind) := by
  have hused : w.table.use? a.name = some b.kind := by
    rw [h.table, ← hname]
    exact ParameterTable.use?_ofAdditions h.names hb
  rw [ParameterTable.perform_eq, hused, h.table]
  rfl

theorem perform_eq_ok_iff {ref : ValueReference} {t : ParameterTable} :
    a.perform w.table = .ok (ref, t) ↔
      a.name ∉ w.taken.map Addition.name ∧ a.reference scope = ref ∧ w.table.adding a = t := by
  by_cases hname : a.name ∈ w.taken.map Addition.name
  · obtain ⟨b, hb, heq⟩ := List.mem_map.mp hname
    simp [h.perform_of_used hb heq, hname]
  · simp [h.perform_of_new hname, hname]

theorem next : (w.next a).Kept scope owner := by
  by_cases hname : a.name ∈ w.taken.map Addition.name
  · obtain ⟨b, hb, heq⟩ := List.mem_map.mp hname
    rw [next_of_error (h.perform_of_used hb heq)]
    exact h
  · rw [next_of_ok (h.perform_of_new hname)]
    refine ⟨?_, ?_⟩
    · rw [ParameterTable.ofAdditions_concat, ← h.table]
    · rw [List.map_append, List.map_singleton, ← List.concat_eq_append]
      exact h.names.concat hname

theorem accepts_iff :
    (∃ result, a.perform w.table = .ok result) ↔ a.name ∉ w.taken.map Addition.name := by
  constructor
  · rintro ⟨⟨ref, t⟩, hresult⟩
    exact (h.perform_eq_ok_iff.mp hresult).1
  · exact fun hname => ⟨_, h.perform_of_new hname⟩

theorem resolvesArgument_iff {ref : ArgumentRef} :
    w.table.resolvesArgument ref = true ↔
      ref.scope = scope ∧ ∃ description default,
        .argument ref.name description default ∈ w.taken := by
  rw [h.table]
  exact ParameterTable.resolvesArgument_ofAdditions

theorem constantValue?_eq_some_iff {ref : ConstantRef} {value : Json} :
    w.table.constantValue? ref = some value ↔
      ref.scope = scope ∧ .constant ref.name value ∈ w.taken := by
  rw [h.table]
  exact ParameterTable.constantValue?_ofAdditions h.names

/-- A reference, wherever it was handed out, resolves by its scope, its name and its kind. -/
theorem resolves_reference_iff {elsewhere : Scope} :
    w.table.Resolves (a.reference elsewhere) ↔
      elsewhere = scope ∧ ∃ b ∈ w.taken, b.name = a.name ∧ b.kind = a.kind := by
  cases a with
  | argument name description default =>
      refine h.resolvesArgument_iff.trans (and_congr_right fun _ => ?_)
      constructor
      · rintro ⟨description, default, hmem⟩
        exact ⟨_, hmem, rfl, rfl⟩
      · rintro ⟨b, hb, hname, hkind⟩
        cases b with
        | argument _ description default =>
            cases hname
            exact ⟨description, default, hb⟩
        | constant _ _ => cases hkind
  | constant name value =>
      have hsome : w.table.Resolves (Addition.reference elsewhere (.constant name value)) ↔
          ∃ value, w.table.constantValue? ⟨elsewhere, name⟩ = some value :=
        Option.isSome_iff_exists
      rw [hsome]
      simp only [h.constantValue?_eq_some_iff, exists_and_left]
      refine and_congr_right fun _ => ?_
      constructor
      · rintro ⟨value, hmem⟩
        exact ⟨_, hmem, rfl, rfl⟩
      · rintro ⟨b, hb, hname, hkind⟩
        cases b with
        | argument _ _ _ => cases hkind
        | constant _ value =>
            cases hname
            exact ⟨value, hb⟩

end Kept

theorem after_concat (scope : Scope) (owner : String) (calls : List Addition) (a : Addition) :
    after scope owner (calls ++ [a]) = (after scope owner calls).next a :=
  List.foldl_concat _ _ _ _

theorem kept_after (scope : Scope) (owner : String) (calls : List Addition) :
    (after scope owner calls).Kept scope owner := by
  induction calls using List.reverseRecOn with
  | nil => exact ⟨rfl, .nil⟩
  | append_singleton calls a ih =>
      rw [after_concat]
      exact ih.next

theorem taken_prefix_next (w : TableHistory) (a : Addition) : w.taken <+: (w.next a).taken := by
  unfold next
  split
  · exact List.prefix_append _ _
  · exact List.prefix_refl _

theorem taken_prefix_after (calls later : List Addition) :
    (after scope owner calls).taken <+: (after scope owner (calls ++ later)).taken := by
  induction later using List.reverseRecOn with
  | nil => simp
  | append_singleton later a ih =>
      rw [← List.append_assoc, after_concat]
      exact ih.trans (taken_prefix_next _ a)

/-- A call is accepted exactly when no accepted call before it used its name, for whichever kind; a
refusal tells the kind of that use. The table lists what was accepted, for ever, and a reference
resolves in it exactly when it has the scope of the table and its name was accepted for its kind.
So it is with a reference that another table handed out, be it a copy that went its own way. -/
theorem additions_decide (scope : Scope) (owner : String) (calls : List Addition) :
    let w := after scope owner calls
    (∀ a : Addition,
      ((∃ result, a.perform w.table = .ok result) ↔ a.name ∉ w.taken.map Addition.name) ∧
      (∀ ref t, a.perform w.table = .ok (ref, t) →
        ref = a.reference scope ∧ w.next a = ⟨t, w.taken ++ [a]⟩) ∧
      ∀ b ∈ w.taken, b.name = a.name →
        a.perform w.table = .error (.duplicateName owner a.name b.kind) ∧ w.next a = w) ∧
    w.table.checkUniqueNames = .ok () ∧
    w.table.arguments = w.taken.filterMap Addition.argument? ∧
    w.table.constants = w.taken.filterMap Addition.constant? ∧
    (w.taken.map Addition.name).Nodup ∧
    (∀ later, ∀ a ∈ w.taken, (after scope owner (calls ++ later)).table.Shows a) ∧
    (∀ ref : ArgumentRef, w.table.resolvesArgument ref = true ↔
      ref.scope = scope ∧ ∃ description default,
        .argument ref.name description default ∈ w.taken) ∧
    (∀ (ref : ConstantRef) value, w.table.constantValue? ref = some value ↔
      ref.scope = scope ∧ .constant ref.name value ∈ w.taken) ∧
    ∀ (a : Addition) (elsewhere : Scope) (other : String) (others : List Addition) ref t,
      a.perform (after elsewhere other others).table = .ok (ref, t) →
        (w.table.Resolves ref ↔
          elsewhere = scope ∧ ∃ b ∈ w.taken, b.name = a.name ∧ b.kind = a.kind) := by
  intro w
  have hw : w.Kept scope owner := kept_after scope owner calls
  refine ⟨fun a => ⟨hw.accepts_iff, ?_, ?_⟩, ?_, ?_, ?_, hw.names, ?_,
    fun _ => hw.resolvesArgument_iff, fun _ _ => hw.constantValue?_eq_some_iff, ?_⟩
  · intro ref t hperform
    exact ⟨(hw.perform_eq_ok_iff.mp hperform).2.1.symm, next_of_ok hperform⟩
  · intro b hb hname
    have hrefused := hw.perform_of_used hb hname
    exact ⟨hrefused, next_of_error hrefused⟩
  · rw [ParameterTable.checkUniqueNames_eq_ok_iff, hw.table]
    exact ParameterTable.nodup_names_ofAdditions hw.names
  · rw [hw.table]
    rfl
  · rw [hw.table]
    rfl
  · intro later a ha
    have hlater := kept_after scope owner (calls ++ later)
    rw [hlater.table]
    exact ParameterTable.shows_ofAdditions hlater.names ((taken_prefix_after calls later).subset ha)
  · intro a elsewhere other others ref t hperform
    obtain ⟨-, rfl, -⟩ := (kept_after elsewhere other others).perform_eq_ok_iff.mp hperform
    exact hw.resolves_reference_iff

/-- Of two copies of a table, one declares an argument where the other declares a constant. -/
example :
    let one := (after (.root 0) "one" [.constant "rate" (.string "1M"), .argument "size" "" none])
    let other := (after (.root 0) "one" [.constant "rate" (.string "1M"), .constant "size" .null])
    one.table.resolvesArgument ⟨.root 0, "size"⟩ = true ∧
      other.table.resolvesArgument ⟨.root 0, "size"⟩ = false ∧
      other.table.resolvesArgument ⟨.root 0, "rate"⟩ = false ∧
      (other.table.constantValue? ⟨.root 0, "rate"⟩).isSome = true := by
  decide

end TableHistory

end Orchestration
