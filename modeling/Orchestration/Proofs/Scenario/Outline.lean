import Orchestration.Proofs.Pairing
import Orchestration.Proofs.Scenario.Reachable
import Orchestration.Proofs.Scenario.Values

namespace Orchestration

/-- The record says what a function does that has the payload. -/
inductive PayloadOutlined (owner : Scenario) : Payload → PayloadRecord → Prop
  | startJob {job : JobLaunch} {arguments : Entries String Json}
      (harguments : owner.resolveValues job.arguments = .ok arguments) :
      PayloadOutlined owner (.startJob job)
        (.startJob job.entity job.job job.offset.toSeconds arguments)
  | stopJobs (targets : List Reference) :
      PayloadOutlined owner (.stopJobs targets) (.stopJobs (targets.map Reference.target))
  | startScenario {inner : Scenario} {bindings : Entries String ParameterValue}
      {scenario : Description} {arguments : Entries String Json}
      (hscenario : inner.outline = .ok scenario)
      (harguments : owner.resolveValues bindings = .ok arguments) :
      PayloadOutlined owner (.startScenario inner bindings)
        (.startScenario inner.name scenario arguments)
  | stopScenario (target : Reference) :
      PayloadOutlined owner (.stopScenario target) (.stopScenario target.target)

theorem outlinePayload_eq_ok_iff {owner : Scenario} {payload : Payload} {record : PayloadRecord} :
    outlinePayload owner payload = .ok record ↔ PayloadOutlined owner payload record := by
  constructor
  · intro h
    cases payload with
    | startJob job =>
        simp only [outlinePayload, Outcome.bind_eq_ok_iff, Outcome.pure_eq_ok_iff] at h
        obtain ⟨arguments, harguments, rfl⟩ := h
        exact .startJob harguments
    | stopJobs targets =>
        simp only [outlinePayload, Outcome.pure_eq_ok_iff] at h
        exact h ▸ .stopJobs targets
    | startScenario inner bindings =>
        simp only [outlinePayload, Outcome.bind_eq_ok_iff, Outcome.pure_eq_ok_iff] at h
        obtain ⟨scenario, hscenario, arguments, harguments, rfl⟩ := h
        exact .startScenario hscenario harguments
    | stopScenario target =>
        simp only [outlinePayload, Outcome.pure_eq_ok_iff] at h
        exact h ▸ .stopScenario target
  · intro h
    cases h with
    | startJob harguments => simp [outlinePayload, harguments]
    | stopJobs targets => rfl
    | startScenario hscenario harguments =>
        simp [outlinePayload, Outcome.bind_eq_ok_iff, hscenario, harguments]
    | stopScenario target => rfl

/-- The record says of the function all that a description says of it. -/
structure FunctionOutlined (owner : Scenario) (f : ScenarioFunction) (r : FunctionRecord) :
    Prop where
  id : r.id = f.id
  kind : r.kind = f.kind
  payload : PayloadOutlined owner f.payload r.payload
  waitFinished : r.waitFinished = f.wait.finished.map Reference.target
  waitLaunched : r.waitLaunched = f.wait.launched.map Reference.target
  waitDelay : r.waitDelay = f.wait.delay.toSeconds

theorem outlineFunctions_eq_ok_iff {owner : Scenario} {functions : List ScenarioFunction}
    {records : List FunctionRecord} :
    outlineFunctions owner functions = .ok records ↔
      List.Forall₂ (FunctionOutlined owner) functions records := by
  induction functions generalizing records with
  | nil =>
      rw [outlineFunctions, Outcome.pure_eq_ok_iff, List.forall₂_nil_left_iff]
      exact eq_comm
  | cons f rest ih =>
      obtain ⟨id, payload, wait⟩ := f
      simp only [outlineFunctions, Outcome.bind_eq_ok_iff, Outcome.pure_eq_ok_iff,
        outlinePayload_eq_ok_iff, ih, List.forall₂_cons_left_iff]
      constructor
      · rintro ⟨record, hrecord, others, hothers, rfl⟩
        exact ⟨_, others, ⟨rfl, rfl, hrecord, rfl, rfl, rfl⟩, hothers, rfl⟩
      · rintro ⟨r, others, hr, hothers, rfl⟩
        refine ⟨r.payload, hr.payload, others, hothers, ?_⟩
        obtain ⟨id', kind, record, waitFinished, waitLaunched, waitDelay⟩ := r
        obtain ⟨hid, hkind, -, hfinished, hlaunched, hdelay⟩ := hr
        simp only at hid hkind hfinished hlaunched hdelay
        rw [hid, hkind, hfinished, hlaunched, hdelay]
        rfl

/-- The description says of one level of a scenario all that it holds. -/
structure Outlined (s : Scenario) (d : Description) : Prop where
  name : d.name = s.name
  description : d.description = s.description
  arguments : d.arguments = s.parameters.arguments
  constants : d.constants = s.parameters.constants
  functions : List.Forall₂ (FunctionOutlined s) s.functions d.functions

namespace Scenario

theorem outline_eq_ok_iff {s : Scenario} {d : Description} :
    s.outline = .ok d ↔ Outlined s d := by
  obtain ⟨name, description, scope, parameters, functions, ids, registry⟩ := s
  simp only [outline, Outcome.bind_eq_ok_iff, Outcome.pure_eq_ok_iff, outlineFunctions_eq_ok_iff]
  constructor
  · rintro ⟨records, hrecords, rfl⟩
    exact ⟨rfl, rfl, rfl, rfl, hrecords⟩
  · intro h
    refine ⟨d.functions, h.functions, ?_⟩
    obtain ⟨name', description', arguments, constants, records⟩ := d
    obtain ⟨hname, hdescription, harguments, hconstants, -⟩ := h
    simp only at hname hdescription harguments hconstants
    rw [hname, hdescription, harguments, hconstants]

theorem exists_outline {s : Scenario} (h : s.Everywhere Coherent) :
    ∃ d, s.outline = .ok d := by
  induction h with
  | @intro s here _ ih =>
      have hpayload : ∀ f ∈ s.functions, ∃ record, PayloadOutlined s f.payload record := by
        intro f hf
        have hadmits := here.payloads f hf
        cases hp : f.payload with
        | startJob job =>
            rw [hp] at hadmits
            have hheld : ∀ argument ∈ job.arguments, s.HoldsAll argument.2 := fun argument hmem =>
              hadmits.2 argument.2 (List.mem_append_left _ (List.mem_map_of_mem hmem))
            obtain ⟨arguments, harguments, -⟩ := exists_resolveValues hheld
            exact ⟨_, .startJob harguments⟩
        | stopJobs targets => exact ⟨_, .stopJobs targets⟩
        | startScenario inner bindings =>
            rw [hp] at hadmits
            obtain ⟨scenario, hscenario⟩ := ih inner ⟨f, hf, bindings, hp⟩
            obtain ⟨arguments, harguments, -⟩ := exists_resolveValues hadmits.held
            exact ⟨_, .startScenario hscenario harguments⟩
        | stopScenario target => exact ⟨_, .stopScenario target⟩
      have hfunction : ∀ f ∈ s.functions, ∃ r, FunctionOutlined s f r := by
        intro f hf
        obtain ⟨record, hrecord⟩ := hpayload f hf
        exact ⟨⟨f.id, f.kind, record, _, _, _⟩, rfl, rfl, hrecord, rfl, rfl, rfl⟩
      obtain ⟨records, hrecords⟩ := exists_forall₂ hfunction
      exact ⟨⟨_, _, _, _, records⟩, outline_eq_ok_iff.mpr ⟨rfl, rfl, rfl, rfl, hrecords⟩⟩

theorem describe_eq_ok_iff {s : Scenario} {d : Description} :
    s.describe = .ok d ↔ s.Everywhere Coherent ∧ s.outline = .ok d := by
  rw [describe, Outcome.seq_eq_ok_iff, validate_eq_ok_iff]

theorem Everywhere.exists_text {s : Scenario} (h : s.Everywhere Coherent) (style : Json.Style) :
    ∃ text, s.toText style = .ok text := by
  obtain ⟨d, hd⟩ := exists_outline h
  have hdescribe : s.describe = .ok d := describe_eq_ok_iff.mpr ⟨h, hd⟩
  exact ⟨d.toJson.text style, by rw [toText, hdescribe]; rfl⟩

/-- Scenarios that are built by calls pass the check, and they have a description. -/
theorem Reachable.exists_describe {s : Scenario} (h : s.Reachable) :
    ∃ d, s.describe = .ok d ∧ s.outline = .ok d := by
  have hcoherent : s.Everywhere Coherent := h.everywhere_intact.coherent
  obtain ⟨d, hd⟩ := exists_outline hcoherent
  exact ⟨d, describe_eq_ok_iff.mpr ⟨hcoherent, hd⟩, hd⟩

end Scenario

end Orchestration
