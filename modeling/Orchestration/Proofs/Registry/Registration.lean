import Mathlib.Data.Finset.Card
import Orchestration.Proofs.Entries
import Orchestration.RegistryFile

namespace Orchestration

/-- The entry is the last one of a job. -/
def LastOf (jobs : List JobEntry) (name : String) (e : JobEntry) : Prop :=
  ∃ before after, jobs = before ++ e :: after ∧ e.name = name ∧ ∀ other ∈ after, other.name ≠ name

theorem LastOf.name_eq {jobs : List JobEntry} {name : String} {e : JobEntry}
    (h : LastOf jobs name e) : e.name = name := by
  obtain ⟨_, _, -, hname, -⟩ := h
  exact hname

theorem not_lastOf_nil {name : String} {e : JobEntry} : ¬ LastOf [] name e := by
  rintro ⟨before, after, hsplit, -⟩
  simp at hsplit

theorem lastOf_concat_iff {jobs : List JobEntry} {name : String} {e last : JobEntry} :
    LastOf (jobs ++ [last]) name e ↔
      if last.name = name then e = last else LastOf jobs name e := by
  constructor
  · rintro ⟨before, after, hsplit, hname, hafter⟩
    -- The entry is the one that was added, or it stands before that one.
    rcases List.eq_nil_or_concat' after with rfl | ⟨front, other, rfl⟩
    · obtain ⟨-, heq⟩ := List.append_inj' hsplit rfl
      obtain rfl : last = e := by simpa using heq
      rw [if_pos hname]
    · rw [← List.cons_append, ← List.append_assoc] at hsplit
      obtain ⟨hjobs, heq⟩ := List.append_inj' hsplit rfl
      obtain rfl : last = other := by simpa using heq
      rw [if_neg (hafter last (by simp))]
      exact ⟨before, front, hjobs, hname, fun x hx => hafter x (by simp [hx])⟩
  · intro h
    split at h
    next hname =>
      subst h
      exact ⟨jobs, [], rfl, hname, by simp⟩
    next hname =>
      obtain ⟨before, after, rfl, he, hafter⟩ := h
      refine ⟨before, after ++ [last], by simp, he, ?_⟩
      intro other hother
      rcases List.mem_append.mp hother with hother | hother
      · exact hafter other hother
      · exact List.mem_singleton.mp hother ▸ hname

namespace JobRegistry

section History

variable {strict : Bool} {jobs : List JobEntry} {name : String}

theorem get?_register (r : JobRegistry) (d : JobDefinition) (name : String) :
    (r.register d).get? name = if d.name = name then some d else r.get? name :=
  Entries.find?_insert _ _ _ _

theorem ofDefinitions_concat (definitions : List JobDefinition) (d : JobDefinition) :
    ofDefinitions strict (definitions ++ [d]) = (ofDefinitions strict definitions).register d :=
  List.foldl_concat _ _ _ _

/-- Registering goes on where a file ends. -/
theorem foldl_register_toRegistry (filed direct : List JobEntry) :
    (direct.map JobEntry.definition).foldl register (RegistryFile.toRegistry ⟨strict, filed⟩) =
      ofDefinitions strict ((filed ++ direct).map JobEntry.definition) := by
  rw [ofDefinitions, List.map_append, List.foldl_append]
  rfl

theorem strict_ofDefinitions (definitions : List JobDefinition) :
    (ofDefinitions strict definitions).strict = strict := by
  induction definitions using List.reverseRecOn with
  | nil => rfl
  | append_singleton definitions d ih =>
      rw [ofDefinitions_concat]
      exact ih

theorem get?_ofDefinitions_eq_some_iff {d : JobDefinition} :
    (ofDefinitions strict (jobs.map JobEntry.definition)).get? name = some d ↔
      ∃ e, LastOf jobs name e ∧ e.definition = d := by
  induction jobs using List.reverseRecOn with
  | nil =>
      constructor
      · intro h
        cases h
      · rintro ⟨e, hlast, -⟩
        exact absurd hlast not_lastOf_nil
  | append_singleton jobs last ih =>
      have hname : last.definition.name = last.name := rfl
      rw [List.map_append, List.map_singleton, ofDefinitions_concat, get?_register, hname]
      simp only [lastOf_concat_iff]
      split
      next => simp
      next => exact ih

theorem jobs_ofDefinitions (definitions : List JobDefinition) :
    (ofDefinitions strict definitions).jobs =
      Entries.ofList (definitions.map fun d => (d.name, d)) := by
  induction definitions using List.reverseRecOn with
  | nil => rfl
  | append_singleton definitions d ih =>
      rw [ofDefinitions_concat, List.map_append, List.map_singleton, Entries.ofList_concat, ← ih]
      rfl

theorem mem_keys_ofDefinitions :
    name ∈ Entries.keys (ofDefinitions strict (jobs.map JobEntry.definition)).jobs ↔
      name ∈ jobs.map JobEntry.name := by
  have hkeys : Entries.keys ((jobs.map JobEntry.definition).map fun d => (d.name, d)) =
      jobs.map JobEntry.name := by
    rw [Entries.keys, List.map_map, List.map_map]
    exact List.map_congr_left fun _ _ => rfl
  rw [jobs_ofDefinitions, Entries.mem_keys_ofList, hkeys]

theorem get?_ofDefinitions_eq_none_iff :
    (ofDefinitions strict (jobs.map JobEntry.definition)).get? name = none ↔
      ∀ e ∈ jobs, e.name ≠ name := by
  rw [get?, ← Option.not_isSome_iff_eq_none, Entries.find?_isSome_iff, mem_keys_ofDefinitions]
  simp

/-- A job counts once, however often it was defined. -/
theorem size_ofDefinitions :
    (ofDefinitions strict (jobs.map JobEntry.definition)).size =
      (jobs.map JobEntry.name).toFinset.card := by
  have hnodup : (Entries.keys
      (ofDefinitions strict (jobs.map JobEntry.definition)).jobs).Nodup := by
    rw [jobs_ofDefinitions]
    exact (Entries.pairwise_keys_ofList _).imp Std.ne_of_lt
  have hkeys : (Entries.keys
      (ofDefinitions strict (jobs.map JobEntry.definition)).jobs).toFinset =
        (jobs.map JobEntry.name).toFinset := by
    ext name
    rw [List.mem_toFinset, List.mem_toFinset, mem_keys_ofDefinitions]
  rw [← hkeys, List.toFinset_card_of_nodup hnodup, Entries.keys, List.length_map]
  rfl

end History

section Judging

variable {strict : Bool} {jobs : List JobEntry} {j : JobLaunch} {e : JobEntry}

/-- What the registry of some entries makes of a launch. Only the last entry of the job counts: its
required keys come first, and its optional ones only let keys pass. -/
inductive Judged (strict : Bool) (jobs : List JobEntry) (j : JobLaunch) : Except Failure Unit → Prop
  | unknown (h : ∀ e ∈ jobs, e.name ≠ j.job) (hstrict : strict = true) :
      Judged strict jobs j (.error (.unknownJob j.job))
  | unlisted (h : ∀ e ∈ jobs, e.name ≠ j.job) (hstrict : strict = false) :
      Judged strict jobs j (.ok ())
  | missing {e : JobEntry} {key : String} (hlast : LastOf jobs j.job e)
      (hkey : Least (fun key => key ∈ e.required ∧ key ∉ Entries.keys j.arguments) key) :
      Judged strict jobs j (.error (.invalidArguments j.job (.missing key)))
  | unexpected {e : JobEntry} {key : String} (hlast : LastOf jobs j.job e)
      (hcomplete : ∀ key ∈ e.required, key ∈ Entries.keys j.arguments)
      (hkey : Least (fun key =>
        key ∈ Entries.keys j.arguments ∧ key ∉ e.required ∧ key ∉ e.optional) key) :
      Judged strict jobs j (.error (.invalidArguments j.job (.unexpected key)))
  | accepted {e : JobEntry} (hlast : LastOf jobs j.job e)
      (hcomplete : ∀ key ∈ e.required, key ∈ Entries.keys j.arguments)
      (hknown : ∀ key ∈ Entries.keys j.arguments, key ∈ e.required ∨ key ∈ e.optional) :
      Judged strict jobs j (.ok ())

theorem accepts_definition {key : String} :
    e.definition.accepts key = true ↔ key ∈ e.required ∨ key ∈ e.optional := by
  simp [JobDefinition.accepts, JobEntry.definition, JobDefinition.ofKeys, Entries.mem_distinct]

theorem find?_missing_eq_some_iff {key : String} :
    (e.definition.required.find? fun key => !j.hasArgument key) = some key ↔
      Least (fun key => key ∈ e.required ∧ key ∉ Entries.keys j.arguments) key := by
  have hrequired : e.definition.required.Pairwise (· < ·) := Entries.pairwise_keys_ofList _
  rw [find?_eq_some_iff_least hrequired]
  simp only [JobEntry.definition, JobDefinition.ofKeys, Entries.mem_distinct, Bool.not_eq_true',
    ← Bool.not_eq_true, JobLaunch.hasArgument, Entries.has_iff]

theorem find?_missing_eq_none_iff :
    (e.definition.required.find? fun key => !j.hasArgument key) = none ↔
      ∀ key ∈ e.required, key ∈ Entries.keys j.arguments := by
  simp [JobEntry.definition, JobDefinition.ofKeys, Entries.mem_distinct, JobLaunch.hasArgument,
    Entries.has_iff]

theorem find?_unexpected_eq_some_iff (hkeys : (Entries.keys j.arguments).Pairwise (· < ·))
    {key : String} :
    ((Entries.keys j.arguments).find? fun key => !e.definition.accepts key) = some key ↔
      Least (fun key =>
        key ∈ Entries.keys j.arguments ∧ key ∉ e.required ∧ key ∉ e.optional) key := by
  rw [find?_eq_some_iff_least hkeys]
  simp only [Bool.not_eq_true', ← Bool.not_eq_true, accepts_definition, not_or]

theorem find?_unexpected_eq_none_iff :
    ((Entries.keys j.arguments).find? fun key => !e.definition.accepts key) = none ↔
      ∀ key ∈ Entries.keys j.arguments, key ∈ e.required ∨ key ∈ e.optional := by
  simp [accepts_definition]

/-- A definition judges alone. -/
theorem check_eq_of_lastOf (hlast : LastOf jobs j.job e) :
    (ofDefinitions strict (jobs.map JobEntry.definition)).check j =
      match e.definition.required.find? fun key => !j.hasArgument key with
      | some key => throw (.invalidArguments j.job (.missing key))
      | none =>
        match (Entries.keys j.arguments).find? fun key => !e.definition.accepts key with
        | some key => throw (.invalidArguments j.job (.unexpected key))
        | none => return () := by
  have hget : (ofDefinitions strict (jobs.map JobEntry.definition)).get? j.job =
      some e.definition := get?_ofDefinitions_eq_some_iff.mpr ⟨e, hlast, rfl⟩
  unfold check
  generalize (ofDefinitions strict (jobs.map JobEntry.definition)).get? j.job = found at hget ⊢
  cases hget
  rfl

theorem check_eq_of_unknown (h : ∀ e ∈ jobs, e.name ≠ j.job) :
    (ofDefinitions strict (jobs.map JobEntry.definition)).check j =
      if strict then throw (.unknownJob j.job) else return () := by
  rw [check, get?_ofDefinitions_eq_none_iff.mpr h, strict_ofDefinitions]

theorem judged_check (hkeys : (Entries.keys j.arguments).Pairwise (· < ·)) :
    Judged strict jobs j ((ofDefinitions strict (jobs.map JobEntry.definition)).check j) := by
  cases hget : (ofDefinitions strict (jobs.map JobEntry.definition)).get? j.job with
  | none =>
      have hunknown := get?_ofDefinitions_eq_none_iff.mp hget
      rw [check_eq_of_unknown hunknown]
      cases strict with
      | true => exact .unknown hunknown rfl
      | false => exact .unlisted hunknown rfl
  | some d =>
      obtain ⟨e, hlast, -⟩ := get?_ofDefinitions_eq_some_iff.mp hget
      rw [check_eq_of_lastOf hlast]
      split
      next key hkey => exact .missing hlast (find?_missing_eq_some_iff.mp hkey)
      next hcomplete =>
        have hgiven := find?_missing_eq_none_iff.mp hcomplete
        split
        next key hkey =>
          exact .unexpected hlast hgiven ((find?_unexpected_eq_some_iff hkeys).mp hkey)
        next hknown => exact .accepted hlast hgiven (find?_unexpected_eq_none_iff.mp hknown)

theorem check_eq_iff_judged (hkeys : (Entries.keys j.arguments).Pairwise (· < ·))
    {outcome : Except Failure Unit} :
    (ofDefinitions strict (jobs.map JobEntry.definition)).check j = outcome ↔
      Judged strict jobs j outcome := by
  refine ⟨fun h => h ▸ judged_check hkeys, fun h => ?_⟩
  cases h with
  | unknown h hstrict =>
      rw [check_eq_of_unknown h, hstrict]
      rfl
  | unlisted h hstrict =>
      rw [check_eq_of_unknown h, hstrict]
      rfl
  | missing hlast hkey =>
      rw [check_eq_of_lastOf hlast, find?_missing_eq_some_iff.mpr hkey]
      rfl
  | unexpected hlast hcomplete hkey =>
      rw [check_eq_of_lastOf hlast, find?_missing_eq_none_iff.mpr hcomplete,
        (find?_unexpected_eq_some_iff hkeys).mpr hkey]
      rfl
  | accepted hlast hcomplete hknown =>
      rw [check_eq_of_lastOf hlast, find?_missing_eq_none_iff.mpr hcomplete,
        find?_unexpected_eq_none_iff.mpr hknown]
      rfl

/-- A registry that was filled from a file and then by hand judges a launch by the last definition
of its job, as the registry of that definition alone would, and it counts jobs by their names. -/
theorem last_definition_judges (strict : Bool) (filed direct : List JobEntry) {j : JobLaunch}
    (hkeys : (Entries.keys j.arguments).Pairwise (· < ·)) :
    let r := (direct.map JobEntry.definition).foldl register
      (RegistryFile.toRegistry ⟨strict, filed⟩)
    (∀ outcome, r.check j = outcome ↔ Judged strict (filed ++ direct) j outcome) ∧
      (∀ e, LastOf (filed ++ direct) j.job e → ∀ anyStrict,
        r.check j = (register { strict := anyStrict } e.definition).check j) ∧
      r.size = ((filed ++ direct).map JobEntry.name).toFinset.card := by
  intro r
  have hr : r = ofDefinitions strict ((filed ++ direct).map JobEntry.definition) :=
    foldl_register_toRegistry filed direct
  rw [hr]
  refine ⟨fun outcome => check_eq_iff_judged hkeys, ?_, size_ofDefinitions⟩
  intro e hlast anyStrict
  have halone : LastOf [e] j.job e := ⟨[], [], rfl, hlast.name_eq, by simp⟩
  have hsingle : (register { strict := anyStrict } e.definition).check j = _ :=
    @check_eq_of_lastOf anyStrict [e] j e halone
  exact (check_eq_of_lastOf hlast).trans hsingle.symm

/-- A definition that was filed and the one that took its place, in which a key is required and
optional at once. -/
def filedFtp : JobEntry := ⟨"ftp", ["size"], []⟩

def directFtp : JobEntry := ⟨"ftp", ["port", "host"], ["size", "host"]⟩

def ftpLaunch (arguments : Entries String ParameterValue) : JobLaunch where
  job := "ftp"
  entity := "client"
  arguments := arguments

/-- The size alone, which the first definition asks for, does not do. -/
theorem ftp_judged :
    ["rate", "size"].Pairwise (· < ·) ∧
      ((RegistryFile.toRegistry ⟨true, [filedFtp]⟩).register directFtp.definition).check
          (ftpLaunch [("rate", .natural 1), ("size", .natural 2)]) =
        .error (.invalidArguments "ftp" (.missing "host")) ∧
      ((RegistryFile.toRegistry ⟨true, [filedFtp]⟩).register directFtp.definition).size = 1 := by
  have hkeys : (Entries.keys (ftpLaunch [("rate", .natural 1), ("size", .natural 2)]).arguments
      ).Pairwise (· < ·) := by decide
  obtain ⟨hjudged, -, hsize⟩ := last_definition_judges true [filedFtp] [directFtp] hkeys
  refine ⟨hkeys, (hjudged _).mpr (.missing (e := directFtp) ⟨[filedFtp], [], rfl, rfl, by simp⟩ ?_),
    hsize.trans (by decide)⟩
  refine ⟨by decide, ?_⟩
  rintro other ⟨hother, -⟩
  obtain rfl | rfl : other = "port" ∨ other = "host" := by simpa [directFtp] using hother
  · decide
  · decide

end Judging

end JobRegistry

end Orchestration
