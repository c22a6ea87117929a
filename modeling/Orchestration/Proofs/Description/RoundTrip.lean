import Orchestration.Description.Reader
import Orchestration.Description.Writer
import Orchestration.Proofs.Json.Decoding

namespace Orchestration

open Json

/-- The argument with a default of null taken for none. -/
def Argument.withoutNullDefault (a : Argument) : Argument :=
  match a.default with
  | some .null => { a with default := none }
  | _ => a

theorem Argument.withoutNullDefault_eq_self {a : Argument} (h : a.default ≠ some .null) :
    a.withoutNullDefault = a := by
  unfold withoutNullDefault
  split
  next hnull => exact absurd hnull h
  next => rfl

mutual

/-- The description with every default of null taken for none. -/
def Description.withoutNullDefaults : Description → Description
  | ⟨name, description, arguments, constants, functions⟩ =>
    ⟨name, description, arguments.map Argument.withoutNullDefault, constants,
      recordsWithoutNullDefaults functions⟩

def recordsWithoutNullDefaults : List FunctionRecord → List FunctionRecord
  | [] => []
  | f :: rest => f.withoutNullDefaults :: recordsWithoutNullDefaults rest

def FunctionRecord.withoutNullDefaults : FunctionRecord → FunctionRecord
  | ⟨id, kind, payload, waitFinished, waitLaunched, waitDelay⟩ =>
    ⟨id, kind, payload.withoutNullDefaults, waitFinished, waitLaunched, waitDelay⟩

def PayloadRecord.withoutNullDefaults : PayloadRecord → PayloadRecord
  | .startScenario name scenario arguments =>
    .startScenario name scenario.withoutNullDefaults arguments
  | .startJob entity job offset arguments => .startJob entity job offset arguments
  | .stopJobs targets => .stopJobs targets
  | .stopScenario target => .stopScenario target

end

def Target.Proper : Target → Prop
  | .own id => id ≤ Text.max32
  | .nested host id => host ≤ Text.max32 ∧ id ≤ Text.max32

/-- The values under free keys are proper, and the keys ascend. -/
structure EntriesProper (entries : Entries String Json) : Prop where
  keys : (Entries.keys entries).Pairwise (· < ·)
  values : ∀ entry ∈ entries, entry.2.Proper

/-- The free values and the targets of the payload are proper. What it embeds is not looked at. -/
def PayloadRecord.Proper : PayloadRecord → Prop
  | .startJob _ _ _ arguments => EntriesProper arguments
  | .stopJobs targets => ∀ target ∈ targets, target.Proper
  | .startScenario _ _ arguments => EntriesProper arguments
  | .stopScenario target => target.Proper

/-- The function has an id of at most 32 bits, and so have the functions that it names. -/
structure FunctionRecord.Proper (f : FunctionRecord) : Prop where
  id : f.id ≤ Text.max32
  payload : f.payload.Proper
  waitFinished : ∀ target ∈ f.waitFinished, target.Proper
  waitLaunched : ∀ target ∈ f.waitLaunched, target.Proper

/-- One level of a description is as the types of its fields have it: ids have at most 32 bits, and
free values are proper. -/
structure Description.Proper (d : Description) : Prop where
  arguments : ∀ a ∈ d.arguments, ∀ value, a.default = some value → value.Proper
  constants : ∀ c ∈ d.constants, c.value.Proper
  functions : ∀ f ∈ d.functions, f.Proper

namespace Description

variable {levels : Nat}

theorem idDecoder_toRaw {id : Nat} (h : id ≤ Text.max32) (levels : Nat) :
    idDecoder levels (Json.ofNat id).toRaw = some id := by
  have hrange : (0 : Int) ≤ id ∧ (id : Int) ≤ Text.max32 := by omega
  simp [idDecoder, Json.ofNat, toRaw, Decoder.natural, hrange]

theorem targetDecoder_toRaw {target : Target} (hproper : target.Proper)
    (hdepth : target.toJson.depth ≤ levels) :
    targetDecoder levels target.toJson.toRaw = some target := by
  rw [targetDecoder, Decoder.first_toRaw hdepth]
  cases target with
  | own id =>
      have hid := idDecoder_toRaw hproper levels
      simp [Target.toJson, hid]
  | nested host id =>
      rw [Target.toJson, depth] at hdepth
      obtain ⟨inner, rfl⟩ : ∃ inner, levels = inner + 1 := ⟨levels - 1, by omega⟩
      have hhost := idDecoder_toRaw hproper.1 inner
      have hid := idDecoder_toRaw hproper.2 inner
      have hown : idDecoder (inner + 1) (Target.nested host id).toJson.toRaw = none := rfl
      have hpair : Decoder.pair idDecoder idDecoder (inner + 1)
          (Target.nested host id).toJson.toRaw = some (host, id) := by
        simp [Target.toJson, toRaw, itemsToRaw, Decoder.pair, hhost, hid]
      simp [hown, hpair]

theorem argumentDecoder_toRaw {a : Argument}
    (hproper : ∀ value, a.default = some value → value.Proper)
    (hdepth : a.toJson.depth ≤ levels) :
    argumentDecoder levels a.toJson.toRaw = some a.withoutNullDefault := by
  obtain ⟨name, description, default⟩ := a
  rw [Argument.toJson] at hdepth ⊢
  obtain ⟨inner, rfl, hmembers, hfields⟩ := Decoder.exists_fields_toRaw hdepth
    (by cases default <;> simp [Entries.keys])
  rw [argumentDecoder, hfields]
  cases default with
  | none => rfl
  | some value =>
      have hvalue := any_toRaw (hproper value rfl) (hmembers ("default", value) (by simp))
      by_cases hnull : value = .null
      · subst hnull
        rfl
      · rw [Argument.withoutNullDefault_eq_self (by simpa using hnull)]
        have hdefault : Decoder.option Decoder.any inner value.toRaw = some (some value) := by
          rw [Decoder.option_any_toRaw hnull, hvalue]
          rfl
        simp [Decoder.Fields.required, Decoder.Fields.defaulted, Decoder.Fields.at?, Entries.find?,
          hdefault]
        rfl

theorem constantDecoder_toRaw {c : Constant} (hproper : c.value.Proper)
    (hdepth : c.toJson.depth ≤ levels) : constantDecoder levels c.toJson.toRaw = some c := by
  rw [Constant.toJson] at hdepth ⊢
  obtain ⟨inner, rfl, hmembers, hfields⟩ := Decoder.exists_fields_toRaw hdepth
    (by simp [Entries.keys])
  have hvalue := any_toRaw hproper (hmembers ("value", c.value) (by simp))
  rw [constantDecoder, hfields]
  simp [Decoder.Fields.required, Decoder.Fields.at?, Entries.find?, hvalue]
  rfl

theorem targets_toRaw {targets : List Target} (hproper : ∀ target ∈ targets, target.Proper)
    (hdepth : (Json.array (targets.map Target.toJson)).depth ≤ levels) :
    Decoder.list targetDecoder levels (Json.array (targets.map Target.toJson)).toRaw =
      some targets := by
  have hlist : Decoder.list targetDecoder levels (Json.array (targets.map Target.toJson)).toRaw =
      some (targets.map id) :=
    Decoder.list_toRaw hdepth fun target htarget inner _ hinner =>
      targetDecoder_toRaw (hproper target htarget) hinner
  simpa using hlist

theorem payloadDecoder_startJob {scenario : Decoder Description} {entity job : String}
    {offset : Double} {arguments : Entries String Json} (hproper : EntriesProper arguments)
    (hdepth : (PayloadRecord.startJob entity job offset arguments).toJson.depth ≤ levels) :
    payloadDecoder scenario levels
        (PayloadRecord.startJob entity job offset arguments).toJson.toRaw =
      some (.startJob entity job offset arguments) := by
  rw [payloadDecoder, Decoder.first_toRaw hdepth]
  rw [PayloadRecord.toJson] at hdepth ⊢
  obtain ⟨inner, rfl, hmembers, hfields⟩ := Decoder.exists_fields_toRaw hdepth
    (by simp [Entries.keys])
  have harguments := Decoder.dictionary_toRaw hproper.keys hproper.values
    (hmembers ("arguments", ofEntries arguments) (by simp))
  have hread : startJobDecoder (inner + 1) (Json.object [("entity_name", .string entity),
      ("job_name", .string job), ("offset", .ofSeconds offset),
      ("arguments", .ofEntries arguments)]).toRaw =
        some (.startJob entity job offset arguments) := by
    rw [startJobDecoder, hfields]
    simp [Decoder.Fields.required, Decoder.Fields.at?, Entries.find?, harguments]
    rfl
  rw [List.findSome?_cons, hread]

theorem payloadDecoder_stopJobs {scenario : Decoder Description} {targets : List Target}
    (hproper : ∀ target ∈ targets, target.Proper)
    (hdepth : (PayloadRecord.stopJobs targets).toJson.depth ≤ levels) :
    payloadDecoder scenario levels (PayloadRecord.stopJobs targets).toJson.toRaw =
      some (.stopJobs targets) := by
  rw [payloadDecoder, Decoder.first_toRaw hdepth]
  rw [PayloadRecord.toJson] at hdepth ⊢
  obtain ⟨inner, rfl, hmembers, hfields⟩ := Decoder.exists_fields_toRaw hdepth
    (by simp [Entries.keys])
  have htargets := targets_toRaw hproper
    (hmembers ("openbach_function_ids", .array (targets.map Target.toJson)) (by simp))
  simp [startJobDecoder, stopJobsDecoder, hfields, Decoder.Fields.required, Decoder.Fields.at?,
    Entries.find?, htargets]

theorem payloadDecoder_startScenario {decoder : Decoder Description} {name : String}
    {scenario read : Description} {arguments : Entries String Json}
    (hproper : EntriesProper arguments)
    (hscenario : ∀ inner, inner < levels → scenario.toJson.depth ≤ inner →
      decoder inner scenario.toJson.toRaw = some read)
    (hdepth : (PayloadRecord.startScenario name scenario arguments).toJson.depth ≤ levels) :
    payloadDecoder decoder levels
        (PayloadRecord.startScenario name scenario arguments).toJson.toRaw =
      some (.startScenario name read arguments) := by
  rw [payloadDecoder, Decoder.first_toRaw hdepth]
  rw [PayloadRecord.toJson] at hdepth ⊢
  obtain ⟨inner, rfl, hmembers, hfields⟩ := Decoder.exists_fields_toRaw hdepth
    (by simp [Entries.keys])
  have hinner := hscenario inner (Nat.lt_succ_self inner)
    (hmembers ("scenario", scenario.toJson) (by simp))
  have harguments := Decoder.dictionary_toRaw hproper.keys hproper.values
    (hmembers ("arguments", ofEntries arguments) (by simp))
  have hread : startScenarioDecoder decoder (inner + 1) (Json.object [
      ("scenario_name", .string name), ("scenario", scenario.toJson),
      ("arguments", .ofEntries arguments)]).toRaw = some (.startScenario name read arguments) := by
    rw [startScenarioDecoder, hfields]
    simp [Decoder.Fields.required, Decoder.Fields.at?, Entries.find?, hinner, harguments]
    rfl
  simp [startJobDecoder, stopJobsDecoder, hfields, Decoder.Fields.required, Decoder.Fields.at?,
    Entries.find?, hread]

theorem payloadDecoder_stopScenario {scenario : Decoder Description} {target : Target}
    (hproper : target.Proper)
    (hdepth : (PayloadRecord.stopScenario target).toJson.depth ≤ levels) :
    payloadDecoder scenario levels (PayloadRecord.stopScenario target).toJson.toRaw =
      some (.stopScenario target) := by
  rw [payloadDecoder, Decoder.first_toRaw hdepth]
  rw [PayloadRecord.toJson] at hdepth ⊢
  obtain ⟨inner, rfl, hmembers, hfields⟩ := Decoder.exists_fields_toRaw hdepth
    (by simp [Entries.keys])
  have htarget := targetDecoder_toRaw hproper
    (hmembers ("openbach_function_id", target.toJson) (by simp))
  simp [startJobDecoder, stopJobsDecoder, startScenarioDecoder, stopScenarioDecoder, hfields,
    Decoder.Fields.required, Decoder.Fields.at?, Entries.find?, htarget]

theorem recordsToJson_eq_map (functions : List FunctionRecord) :
    recordsToJson functions = functions.map FunctionRecord.toJson := by
  induction functions with
  | nil => rfl
  | cons f rest ih => rw [recordsToJson, ih, List.map_cons]

theorem recordsWithoutNullDefaults_eq_map (functions : List FunctionRecord) :
    recordsWithoutNullDefaults functions =
      functions.map FunctionRecord.withoutNullDefaults := by
  induction functions with
  | nil => rfl
  | cons f rest ih => rw [recordsWithoutNullDefaults, ih, List.map_cons]

theorem payloadDecoder_toRaw {decoder : Decoder Description} {payload : PayloadRecord}
    (hproper : payload.Proper)
    (hscenario : ∀ name scenario arguments, payload = .startScenario name scenario arguments →
      ∀ inner, inner < levels → scenario.toJson.depth ≤ inner →
        decoder inner scenario.toJson.toRaw = some scenario.withoutNullDefaults)
    (hdepth : payload.toJson.depth ≤ levels) :
    payloadDecoder decoder levels payload.toJson.toRaw = some payload.withoutNullDefaults := by
  cases payload with
  | startJob entity job offset arguments => exact payloadDecoder_startJob hproper hdepth
  | stopJobs targets => exact payloadDecoder_stopJobs hproper hdepth
  | startScenario name scenario arguments =>
      exact payloadDecoder_startScenario hproper (hscenario name scenario arguments rfl) hdepth
  | stopScenario target => exact payloadDecoder_stopScenario hproper hdepth

theorem functionDecoder_toRaw {decoder : Decoder Description} {f : FunctionRecord}
    (hproper : f.Proper)
    (hscenario : ∀ name scenario arguments, f.payload = .startScenario name scenario arguments →
      ∀ inner, inner < levels → scenario.toJson.depth ≤ inner →
        decoder inner scenario.toJson.toRaw = some scenario.withoutNullDefaults)
    (hdepth : f.toJson.depth ≤ levels) :
    functionDecoder decoder levels f.toJson.toRaw = some f.withoutNullDefaults := by
  obtain ⟨id, kind, payload, waitFinished, waitLaunched, waitDelay⟩ := f
  rw [FunctionRecord.toJson] at hdepth ⊢
  obtain ⟨inner, rfl, hmembers, hfields⟩ := Decoder.exists_fields_toRaw hdepth
    (by simp [Entries.keys])
  have hid := idDecoder_toRaw hproper.id inner
  have hkind : Decoder.oneOf FunctionKind.ofName? inner (Json.string kind.name).toRaw =
      some kind := by
    cases kind <;> rfl
  have hpayload := payloadDecoder_toRaw hproper.payload
    (fun name scenario arguments h level hlevel => hscenario name scenario arguments h level
      (Nat.lt_succ_of_lt hlevel)) (hmembers ("payload", payload.toJson) (by simp))
  have hfinished := targets_toRaw hproper.waitFinished
    (hmembers ("wait_finished", .array (waitFinished.map Target.toJson)) (by simp))
  have hlaunched := targets_toRaw hproper.waitLaunched
    (hmembers ("wait_launched", .array (waitLaunched.map Target.toJson)) (by simp))
  rw [functionDecoder, hfields]
  simp [Decoder.Fields.required, Decoder.Fields.at?, Entries.find?, hid, hkind, hpayload, hfinished,
    hlaunched]
  rfl

/-- Every embedding takes levels, so as many embeddings can be read as there are levels. -/
theorem decoderTo_toRaw {d : Description} (hproper : d.Everywhere Description.Proper) :
    ∀ {embeddings levels : Nat}, levels ≤ embeddings → d.toJson.depth ≤ levels →
      decoderTo embeddings levels d.toJson.toRaw = some d.withoutNullDefaults := by
  induction hproper with
  | @intro d here _ ih =>
      intro embeddings levels hle hdepth
      obtain ⟨name, description, arguments, constants, functions⟩ := d
      rw [toJson] at hdepth ⊢
      obtain ⟨inner, rfl, hmembers, hfields⟩ := Decoder.exists_fields_toRaw hdepth
        (by simp [Entries.keys])
      obtain ⟨embeddings, rfl⟩ : ∃ n, embeddings = n + 1 := ⟨embeddings - 1, by omega⟩
      have harguments : Decoder.list argumentDecoder inner
          (Json.array (arguments.map Argument.toJson)).toRaw =
            some (arguments.map Argument.withoutNullDefault) :=
        Decoder.list_toRaw (hmembers ("arguments", _) (by simp)) fun a ha level _ hlevel =>
          argumentDecoder_toRaw (here.arguments a ha) hlevel
      have hconstants : Decoder.list constantDecoder inner
          (Json.array (constants.map Constant.toJson)).toRaw = some (constants.map id) :=
        Decoder.list_toRaw (hmembers ("constants", _) (by simp)) fun c hc level _ hlevel =>
          constantDecoder_toRaw (here.constants c hc) hlevel
      have hfunctions : Decoder.list (functionDecoder (decoderTo embeddings)) inner
          (Json.array (functions.map FunctionRecord.toJson)).toRaw =
            some (functions.map FunctionRecord.withoutNullDefaults) := by
        have hfunctionsDepth := hmembers ("functions", .array (recordsToJson functions)) (by simp)
        rw [recordsToJson_eq_map] at hfunctionsDepth
        refine Decoder.list_toRaw hfunctionsDepth fun f hf level hlevel hfdepth => ?_
        refine functionDecoder_toRaw (here.functions f hf) ?_ hfdepth
        intro name scenario arguments hpayload lower hlower hscenario
        exact ih scenario ⟨f, hf, name, arguments, hpayload⟩ (by omega) hscenario
      simp only [decoderTo, hfields]
      simp [Decoder.Fields.required, Decoder.Fields.at?, Entries.find?, harguments, hconstants,
        hfunctions, recordsToJson_eq_map, withoutNullDefaults, recordsWithoutNullDefaults_eq_map]
      rfl

section Integers

theorem integersInRange_ofNat {id : Nat} (h : id ≤ Text.max32) :
    (Json.ofNat id).IntegersInRange := by
  apply integersInRange_integer
  unfold Text.max32 at h
  unfold InRange
  omega

theorem integersInRange_target {target : Target} (h : target.Proper) :
    target.toJson.IntegersInRange := by
  cases target with
  | own id => exact integersInRange_ofNat h
  | nested host id =>
      apply integersInRange_array
      simp only [List.forall_mem_cons, List.not_mem_nil, false_implies, implies_true, and_true]
      exact ⟨integersInRange_ofNat h.1, integersInRange_ofNat h.2⟩

theorem integersInRange_targets {targets : List Target} (h : ∀ target ∈ targets, target.Proper) :
    (Json.array (targets.map Target.toJson)).IntegersInRange := by
  apply integersInRange_array
  rw [List.forall_mem_map]
  exact fun target htarget => integersInRange_target (h target htarget)

theorem integersInRange_argument {a : Argument}
    (h : ∀ value, a.default = some value → value.Proper) : a.toJson.IntegersInRange := by
  apply integersInRange_object
  rw [List.forall_mem_append]
  constructor
  · simp [integersInRange_string]
  · rw [List.forall_mem_map]
    exact fun value hvalue => (h value (Option.mem_toList.mp hvalue)).integersInRange

theorem integersInRange_constant {c : Constant} (h : c.value.Proper) :
    c.toJson.IntegersInRange := by
  apply integersInRange_object
  simp [integersInRange_string, h.integersInRange]

theorem integersInRange_ofEntries {entries : Entries String Json} (h : EntriesProper entries) :
    (Json.ofEntries entries).IntegersInRange :=
  integersInRange_object fun entry hentry => (h.values entry hentry).integersInRange

theorem integersInRange_payload {payload : PayloadRecord} (h : payload.Proper)
    (hscenario : ∀ name scenario arguments, payload = .startScenario name scenario arguments →
      scenario.toJson.IntegersInRange) : payload.toJson.IntegersInRange := by
  cases payload with
  | startJob entity job offset arguments =>
      apply integersInRange_object
      simp [integersInRange_string, Json.ofSeconds, integersInRange_real,
        integersInRange_ofEntries h]
  | stopJobs targets =>
      apply integersInRange_object
      simp only [List.forall_mem_cons, List.not_mem_nil, false_implies, implies_true, and_true]
      exact integersInRange_targets h
  | startScenario name scenario arguments =>
      apply integersInRange_object
      simp [integersInRange_string, hscenario name scenario arguments rfl,
        integersInRange_ofEntries h]
  | stopScenario target =>
      apply integersInRange_object
      simp only [List.forall_mem_cons, List.not_mem_nil, false_implies, implies_true, and_true]
      exact integersInRange_target h

theorem integersInRange_toJson {d : Description} (h : d.Everywhere Description.Proper) :
    d.toJson.IntegersInRange := by
  induction h with
  | @intro d here _ ih =>
      obtain ⟨name, description, arguments, constants, functions⟩ := d
      have harguments : (Json.array (arguments.map Argument.toJson)).IntegersInRange := by
        apply integersInRange_array
        rw [List.forall_mem_map]
        exact fun a ha => integersInRange_argument (here.arguments a ha)
      have hconstants : (Json.array (constants.map Constant.toJson)).IntegersInRange := by
        apply integersInRange_array
        rw [List.forall_mem_map]
        exact fun c hc => integersInRange_constant (here.constants c hc)
      have hfunctions : (Json.array (recordsToJson functions)).IntegersInRange := by
        apply integersInRange_array
        rw [recordsToJson_eq_map, List.forall_mem_map]
        rintro ⟨id, kind, payload, waitFinished, waitLaunched, waitDelay⟩ hf
        have hproper := here.functions _ hf
        have hpayload := integersInRange_payload hproper.payload
          fun name scenario arguments hstarts => ih scenario ⟨_, hf, name, arguments, hstarts⟩
        apply integersInRange_object
        simp [integersInRange_ofNat hproper.id, integersInRange_string, hpayload,
          integersInRange_targets hproper.waitFinished,
          integersInRange_targets hproper.waitLaunched, Json.ofSeconds, integersInRange_real]
      apply integersInRange_object
      simp [integersInRange_string, harguments, hconstants, hfunctions]

end Integers

theorem withoutNullDefaults_eq_self {d : Description}
    (h : d.Everywhere fun level => ∀ a ∈ level.arguments, a.default ≠ some .null) :
    d.withoutNullDefaults = d := by
  induction h with
  | @intro d here _ ih =>
      obtain ⟨name, description, arguments, constants, functions⟩ := d
      have harguments : arguments.map Argument.withoutNullDefault = arguments := by
        conv => rhs; rw [← List.map_id arguments]
        apply List.map_congr_left
        exact fun a ha => Argument.withoutNullDefault_eq_self (here a ha)
      have hfunctions : recordsWithoutNullDefaults functions = functions := by
        rw [recordsWithoutNullDefaults_eq_map]
        conv => rhs; rw [← List.map_id functions]
        apply List.map_congr_left
        rintro ⟨id, kind, payload, waitFinished, waitLaunched, waitDelay⟩ hf
        cases payload with
        | startScenario name scenario arguments =>
            have hinside := ih scenario ⟨_, hf, name, arguments, rfl⟩
            simp [FunctionRecord.withoutNullDefaults, PayloadRecord.withoutNullDefaults, hinside]
        | startJob _ _ _ _ | stopJobs _ | stopScenario _ => rfl
      rw [withoutNullDefaults, harguments, hfunctions]

theorem decode?_text {style : Style} (hplain : style.Plain) {d : Description}
    (hproper : d.Everywhere Description.Proper)
    (hdoubles : ∀ x, .real x ∈ d.toJson.numbers → ReadsBack x)
    (hdepth : d.toJson.depth ≤ maxLevels) :
    decode? decoder (d.toJson.text style) = some d.withoutNullDefaults := by
  have hlegible : ∀ n ∈ d.toJson.numbers, n.Legible := by
    intro n hn
    cases n with
    | integer m => exact integersInRange_toJson hproper m hn
    | real x => exact hdoubles x hn
  rw [decode?, read?_text hplain hlegible]
  exact decoderTo_toRaw hproper (Nat.le_refl _) hdepth

/-- Reading undoes writing, on one line and indented: a description whose doubles read back alone
and that is not nested too deep comes back, with every default of null taken for none. -/
theorem decode?_compact_and_pretty {d : Description} (hproper : d.Everywhere Description.Proper)
    (hdoubles : ∀ x, .real x ∈ d.toJson.numbers → ReadsBack x)
    (hdepth : d.toJson.depth ≤ maxLevels) :
    decode? decoder d.toJson.compact = some d.withoutNullDefaults ∧
      decode? decoder d.toJson.pretty = some d.withoutNullDefaults ∧
        ((d.Everywhere fun level => ∀ a ∈ level.arguments, a.default ≠ some .null) →
          d.withoutNullDefaults = d) :=
  ⟨decode?_text Style.plain_compact hproper hdoubles hdepth,
    decode?_text Style.plain_pretty hproper hdoubles hdepth, withoutNullDefaults_eq_self⟩

section Sample

def inner (offset delay : Double) : Description where
  name := "inner"
  description := ""
  arguments := []
  constants := []
  functions := [⟨0, .startJob, .startJob "server" "iperf" offset [("port", .string "$size")],
    [], [], delay⟩]

/-- A description with a default of null, free values, and a reference into what it embeds. -/
def outer (offset delay : Double) : Description where
  name := "outer"
  description := "with \"quotes\"\n"
  arguments := [⟨"size", "", some .null⟩]
  constants := [⟨"limits",
    .object [("high", .number (.integer 5)), ("low", .number (.integer (-5)))]⟩]
  functions := [⟨0, .startScenario, .startScenario "inner" (inner offset delay) [], [], [], delay⟩,
    ⟨1, .stopScenario, .stopScenario (.own 0), [.nested 0 0], [.own 0], delay⟩]

theorem inner_proper (offset delay : Double) : (inner offset delay).Everywhere Proper := by
  refine .intro ⟨by simp [inner], by simp [inner], ?_⟩ ?_
  · intro f hf
    rw [List.mem_singleton.mp hf]
    refine ⟨Nat.zero_le _, ⟨List.pairwise_singleton _ _, ?_⟩, by simp, by simp⟩
    intro entry hentry
    rw [List.mem_singleton.mp hentry]
    exact .string _
  · rintro other ⟨f, hf, name, arguments, hpayload⟩
    rw [List.mem_singleton.mp hf] at hpayload
    cases hpayload

theorem outer_proper (offset delay : Double) : (outer offset delay).Everywhere Proper := by
  refine .intro ⟨?_, ?_, ?_⟩ ?_
  · intro a ha value hvalue
    rw [List.mem_singleton.mp ha] at hvalue
    cases hvalue
    exact .null
  · intro c hc
    rw [List.mem_singleton.mp hc]
    refine .object (by decide) ?_
    intro member hmember
    simp only [List.mem_cons, List.not_mem_nil, or_false] at hmember
    rcases hmember with rfl | rfl
    · exact .integer (by unfold InRange; decide)
    · exact .integer (by unfold InRange; decide)
  · intro f hf
    simp only [outer, List.mem_cons, List.not_mem_nil, or_false] at hf
    rcases hf with rfl | rfl
    · exact ⟨Nat.zero_le _, ⟨.nil, by simp⟩, by simp, by simp⟩
    · exact ⟨by simp [Text.max32], Nat.zero_le _, by simp [Target.Proper], by simp [Target.Proper]⟩
  · rintro other ⟨f, hf, name, arguments, hpayload⟩
    simp only [outer, List.mem_cons, List.not_mem_nil, or_false] at hf
    rcases hf with rfl | rfl
    · cases hpayload
      exact inner_proper offset delay
    · cases hpayload

theorem doubles_outer {offset delay x : Double}
    (h : .real x ∈ (outer offset delay).toJson.numbers) : x = offset ∨ x = delay := by
  simp only [outer, inner, toJson, recordsToJson, FunctionRecord.toJson, PayloadRecord.toJson,
    Argument.toJson, Constant.toJson, Target.toJson, Json.ofEntries, Json.ofSeconds, Json.ofNat,
    Option.toList_some, List.map_cons, List.map_nil, List.cons_append, List.nil_append, numbers,
    itemNumbers, memberNumbers, List.append_nil, List.mem_cons, List.not_mem_nil,
    Number.real.injEq, reduceCtorEq, or_false, false_or] at h
  tauto

theorem readsBack_seconds : ReadsBack (Duration.ofMilliseconds 1500).toSeconds ∧
    ReadsBack Duration.zero.toSeconds := by
  unfold ReadsBack
  decide +kernel

theorem decode?_outer :
    let d := outer (Duration.ofMilliseconds 1500).toSeconds Duration.zero.toSeconds
    decode? decoder d.toJson.compact = some d.withoutNullDefaults ∧
      decode? decoder d.toJson.pretty = some d.withoutNullDefaults ∧
        ((d.Everywhere fun level => ∀ a ∈ level.arguments, a.default ≠ some .null) →
          d.withoutNullDefaults = d) := by
  refine decode?_compact_and_pretty (outer_proper _ _) ?_ (by decide)
  intro x hx
  rcases doubles_outer hx with rfl | rfl
  · exact readsBack_seconds.1
  · exact readsBack_seconds.2

end Sample

end Description

end Orchestration
