import Orchestration.Proofs.Description.Parameters
import Orchestration.Proofs.Description.References
import Orchestration.Proofs.Description.RoundTrip

namespace Orchestration

open Json

/-- The literals in the value are proper, and the keys of its maps ascend. -/
inductive ParameterValue.Proper : ParameterValue → Prop
  | literal {value : Json} (h : value.Proper) : Proper (.literal value)
  | argument (ref : ArgumentRef) : Proper (.argument ref)
  | constant (ref : ConstantRef) : Proper (.constant ref)
  | function (ref : Reference) : Proper (.function ref)
  | list {items : List ParameterValue} (h : ∀ item ∈ items, Proper item) : Proper (.list items)
  | map {entries : List (String × ParameterValue)}
      (hkeys : (Entries.keys entries).Pairwise (· < ·)) (h : ∀ entry ∈ entries, Proper entry.2) :
      Proper (.map entries)

structure ParametersProper (entries : Entries String ParameterValue) : Prop where
  keys : (Entries.keys entries).Pairwise (· < ·)
  values : ∀ entry ∈ entries, entry.2.Proper

/-- The free values of one level are as their types have them, and its functions can be numbered in
32 bits. -/
structure Scenario.Proper (s : Scenario) : Prop where
  arguments : ∀ a ∈ s.parameters.arguments, ∀ value, a.default = some value → value.Proper
  constants : ∀ c ∈ s.parameters.constants, c.value.Proper
  size : s.functions.length ≤ Text.max32 + 1
  jobs : ∀ f ∈ s.functions, ∀ job, f.payload = .startJob job → ParametersProper job.arguments
  bindings : ∀ f ∈ s.functions, ∀ inner bindings, f.payload = .startScenario inner bindings →
    ParametersProper bindings

section Values

theorem Target.Proper.toJson {target : Target} (h : target.Proper) : target.toJson.Proper := by
  have hrange : ∀ id ≤ Text.max32, (Json.ofNat id).Proper := by
    intro id hid
    apply Json.Proper.integer
    unfold Text.max32 at hid
    unfold InRange
    omega
  cases target with
  | own id => exact hrange id h
  | nested host id =>
      apply Json.Proper.array
      simp only [List.forall_mem_cons, List.not_mem_nil, false_implies, implies_true, and_true]
      exact ⟨hrange host h.1, hrange id h.2⟩

theorem EntriesWritten.exists_of_mem {constants : List Constant}
    {entries : List (String × ParameterValue)} :
    ∀ {members : List (String × Json)}, EntriesWritten constants entries members →
      ∀ member ∈ members, ∃ entry ∈ entries, ValueWritten constants entry.2 member.2 := by
  induction entries with
  | nil =>
      rintro _ ⟨⟩ member hmember
      cases hmember
  | cons entry entries ih =>
      rintro _ (_ | ⟨h, hrest⟩) member hmember
      rcases List.mem_cons.mp hmember with rfl | hmember
      · exact ⟨_, List.mem_cons_self, h⟩
      · obtain ⟨found, hfound, hwritten⟩ := ih hrest member hmember
        exact ⟨found, List.mem_cons_of_mem _ hfound, hwritten⟩

variable {constants : List Constant}

theorem ParameterValue.Proper.written (hconstants : ∀ c ∈ constants, c.value.Proper)
    {value : ParameterValue} (h : value.Proper)
    (htargets : ∀ r, value.Mentions (.function r) → r.target.Proper) :
    ∀ {json : Json}, ValueWritten constants value json → json.Proper := by
  induction h with
  | literal h =>
      rintro _ ⟨⟩
      exact h
  | argument ref =>
      rintro _ ⟨⟩
      exact .string _
  | constant ref =>
      rintro _ (_ | _ | ⟨hc, -⟩)
      exact hconstants _ hc
  | function ref =>
      rintro _ ⟨⟩
      exact (htargets ref (.function ref)).toJson
  | list _ ih =>
      rintro _ (_ | _ | _ | _ | hitems)
      refine .array fun item hitem => ?_
      obtain ⟨source, hsource, hwritten⟩ := exists_of_mem_right hitems hitem
      exact ih source hsource (fun r hr => htargets r (.item hsource hr)) hwritten
  | map hkeys _ ih =>
      rintro _ (_ | _ | _ | _ | _ | hentries)
      refine .object ?_ fun member hmember => ?_
      · rw [hentries.keys]
        exact hkeys
      · obtain ⟨entry, hentry, hwritten⟩ := hentries.exists_of_mem member hmember
        exact ih entry hentry (fun r hr => htargets r (.entry hentry hr)) hwritten

theorem ParametersProper.written (hconstants : ∀ c ∈ constants, c.value.Proper)
    {entries : Entries String ParameterValue} (h : ParametersProper entries)
    (htargets : ∀ entry ∈ entries, ∀ r, entry.2.Mentions (.function r) → r.target.Proper)
    {members : Entries String Json} (hwritten : EntriesWritten constants entries members) :
    EntriesProper members := by
  constructor
  · rw [hwritten.keys]
    exact h.keys
  · intro member hmember
    obtain ⟨entry, hentry, hvalue⟩ := hwritten.exists_of_mem member hmember
    exact (h.values entry hentry).written hconstants (htargets entry hentry) hvalue

end Values

namespace Scenario

variable {s : Scenario}

theorem Everywhere.and {P Q : Scenario → Prop} (hP : s.Everywhere P) (hQ : s.Everywhere Q) :
    s.Everywhere fun level => P level ∧ Q level := by
  induction hP with
  | intro here _ ih => exact .intro ⟨here, hQ.here⟩ fun inner h => ih inner h (hQ.inside h)

theorem Everywhere.all {P : Scenario → Prop} (h : s.Everywhere P) :
    s.Everywhere fun level => level.Everywhere P := by
  induction h with
  | intro here inside ih => exact .intro (.intro here inside) ih

theorem Intact.id_le (hintact : s.Intact) (hproper : s.Proper) {id : FunctionId}
    {f : ScenarioFunction} (hf : s.function? id = some f) : id ≤ Text.max32 := by
  obtain ⟨hmem, rfl⟩ := mem_of_function? hf
  have hlt := hintact.id_lt hmem
  have hsize := hproper.size
  exact Nat.lt_succ_iff.mp (Nat.lt_of_lt_of_le hlt hsize)

theorem Resolves.target_proper (h : s.Everywhere fun level => level.Intact ∧ level.Proper)
    {r : Reference} (hr : s.Resolves r) : r.target.Proper := by
  obtain ⟨scope, host, id⟩ := r
  cases host with
  | none =>
      obtain ⟨f, -, hf⟩ := hr
      exact h.here.1.id_le h.here.2 hf
  | some host =>
      obtain ⟨f, -, g, inner, bindings, hg, hstarts, hf⟩ := hr
      have hinner := (h.inside ⟨g, (mem_of_function? hg).1, bindings, hstarts⟩).here
      exact ⟨h.here.1.id_le h.here.2 hg, hinner.1.id_le hinner.2 hf⟩

end Scenario

theorem PayloadOutlined.proper {s : Scenario} {d : Description} (houtlined : Outlined s d)
    (h : s.Everywhere fun level => level.Intact ∧ level.Proper) {f : ScenarioFunction}
    (hf : f ∈ s.functions) {record : PayloadRecord}
    (hrecord : PayloadOutlined s f.payload record) : record.Proper := by
  have hconstants : ∀ c ∈ d.constants, c.value.Proper := houtlined.constants ▸ h.here.2.constants
  have hadmits := h.here.1.payloads f hf
  have htargets : ∀ value, s.HoldsAll value → ∀ r, value.Mentions (.function r) →
      r.target.Proper :=
    fun value hheld r hr => Scenario.Resolves.target_proper h (hheld _ hr.mem_references)
  generalize hpayload : f.payload = payload at hrecord hadmits
  cases hrecord with
  | @startJob job arguments harguments =>
      have hheld : ∀ argument ∈ job.arguments, s.HoldsAll argument.2 := fun argument hmem =>
        hadmits.2 argument.2 (List.mem_append_left _ (List.mem_map_of_mem hmem))
      have hwritten := Scenario.entriesWritten_of_resolveValues houtlined hheld harguments
      exact (h.here.2.jobs f hf job hpayload).written hconstants
        (fun argument hmem => htargets _ (hheld argument hmem)) hwritten
  | stopJobs targets =>
      intro target htarget
      obtain ⟨r, hr, rfl⟩ := List.mem_map.mp htarget
      obtain ⟨-, g, hg, -⟩ := hadmits r hr
      exact Scenario.Resolves.target_proper h ⟨g, hg⟩
  | @startScenario inner bindings scenario arguments hscenario harguments =>
      have hbinds : s.Binds inner bindings := hadmits
      have hwritten := Scenario.entriesWritten_of_resolveValues houtlined hbinds.held harguments
      exact (h.here.2.bindings f hf inner bindings hpayload).written hconstants
        (fun binding hmem => htargets _ (hbinds.held binding hmem)) hwritten
  | stopScenario target =>
      obtain ⟨-, g, hg, -⟩ := hadmits
      exact Scenario.Resolves.target_proper h ⟨g, hg⟩

theorem Outlined.proper {s : Scenario} {d : Description} (houtlined : Outlined s d)
    (h : s.Everywhere fun level => level.Intact ∧ level.Proper) : d.Proper := by
  have hwaits : ∀ f ∈ s.functions, ∀ r ∈ f.wait.references, r.target.Proper :=
    fun f hf r hr => Scenario.Resolves.target_proper h (h.here.1.waits f hf r hr)
  refine ⟨?_, ?_, ?_⟩
  · rw [houtlined.arguments]
    exact h.here.2.arguments
  · rw [houtlined.constants]
    exact h.here.2.constants
  · intro r hr
    obtain ⟨f, hf, hrecord⟩ := exists_of_mem_right houtlined.functions hr
    refine ⟨?_, hrecord.payload.proper houtlined h hf, ?_, ?_⟩
    · rw [hrecord.id]
      exact h.here.1.id_le h.here.2 (Scenario.function?_of_mem h.here.1.ids hf)
    · rw [hrecord.waitFinished, List.forall_mem_map]
      exact fun reference hmem => hwaits f hf reference (List.mem_append_left _ hmem)
    · rw [hrecord.waitLaunched, List.forall_mem_map]
      exact fun reference hmem => hwaits f hf reference (List.mem_append_right _ hmem)

/-- The text of a scenario that is built by calls reads back as its description, if the doubles in
it read back alone and it is not nested too deep. -/
theorem Scenario.Reachable.text_reads_back {s : Scenario} (h : s.Reachable)
    (hproper : s.Everywhere Proper) :
    ∃ d, s.describe = .ok d ∧ d.Everywhere Description.Proper ∧
      ((∀ x, .real x ∈ d.toJson.numbers → ReadsBack x) → d.toJson.depth ≤ maxLevels →
        ∀ style, style.Plain → ∃ text, s.toText style = .ok text ∧
          decode? Description.decoder text = some d.withoutNullDefaults) := by
  obtain ⟨d, hdescribe, houtline⟩ := h.exists_describe
  have hlevels := (h.everywhere_intact.and hproper).all
  have hd : d.Everywhere Description.Proper :=
    hlevels.outline houtline fun _ _ hlevel houtlined => houtlined.proper hlevel
  refine ⟨d, hdescribe, hd, ?_⟩
  intro hdoubles hdepth style hplain
  refine ⟨d.toJson.text style, ?_, Description.decode?_text hplain hd hdoubles hdepth⟩
  rw [toText, hdescribe]
  rfl

end Orchestration
