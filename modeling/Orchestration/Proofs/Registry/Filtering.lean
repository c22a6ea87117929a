import Orchestration.Proofs.Registry.Building

namespace Orchestration

open Build Scenario

namespace Launch

theorem blind_one (launch : JobLaunch) (wait : WaitClause) : (one launch wait).Blind :=
  (blind_startJob launch wait).bind fun _ => blind_pure _

theorem blind_voip (source destination : String) (call : Call) (wait : WaitClause) :
    (voip source destination call wait).Blind :=
  (blind_startJob _ _).bind fun _ => (blind_startJob _ _).bind fun _ => blind_pure _

theorem blind_iperf3Send (client server : String) (serverIp : ParameterValue) (flow : Flow)
    (wait : WaitClause) : (iperf3Send client server serverIp flow wait).Blind :=
  (blind_one _ _).bind fun _ => (blind_startJob _ _).bind fun _ => blind_pure _

end Launch

namespace Service

theorem blind_dataTransfer (r : TrafficRecord) (size : String) (tos mtu : Nat) :
    (dataTransfer r size tos mtu).Blind := by
  refine (blind_argument _ _).bind fun destinationIp => ?_
  refine (blind_argument _ _).bind fun port => ?_
  refine (blind_argument _ _).bind fun duration => ?_
  exact (Launch.blind_iperf3Send _ _ _ _ _).bind fun _ => blind_pure ()

theorem blind_voip (r : TrafficRecord) (codec : String) : (voip r codec).Blind := by
  refine (blind_argument _ _).bind fun destinationIp => ?_
  refine (blind_argument _ _).bind fun port => ?_
  refine (blind_argument _ _).bind fun duration => ?_
  refine (Launch.blind_voip _ _ _ _).bind fun handles => ?_
  split
  · exact (blind_stopJobs _ _).bind fun _ => blind_pure ()
  · exact blind_pure ()

theorem blind_webBrowsing (r : TrafficRecord) (runs parallelRuns : Nat) :
    (webBrowsing r runs parallelRuns).Blind :=
  (blind_argument _ _).bind fun _ => (Launch.blind_one _ _).bind fun _ => blind_pure ()

theorem blind_videoDash (r : TrafficRecord) (protocol : String) (tornadoPort : Nat) :
    (videoDash r protocol tornadoPort).Blind :=
  (blind_argument _ _).bind fun _ => (Launch.blind_one _ _).bind fun _ => blind_pure ()

theorem blind_steps (r : TrafficRecord) : (steps r).Blind := by
  unfold steps
  split
  · exact blind_dataTransfer r _ _ _
  · exact blind_voip r _
  · exact blind_webBrowsing r _ _
  · exact blind_videoDash r _ _

end Service

namespace TrafficMix

theorem blind_startMissing {start : String → Build (List Handle)} (h : ∀ e, (start e).Blind)
    (servers : List (String × Handle)) (records : List TrafficRecord) :
    (startMissing start servers records).Blind := by
  refine filters_foldlM (fun servers r => ?_) records servers
  split
  · exact blind_pure servers
  · exact (h r.source).bind fun _ => blind_pure _

theorem blind_startServers (records : List TrafficRecord) : (startServers records).Blind :=
  (blind_startMissing (fun _ => Launch.blind_one _ _) _ _).bind fun _ =>
    blind_startMissing (fun _ => Launch.blind_one _ _) _ _

theorem filters_startTraffic (registry : JobRegistry) (servers : List Handle) (c : Composer)
    (r : TrafficRecord) :
    (startTraffic registry servers c r).Filters Eq (startTraffic .permissive servers c r) := by
  refine (blind_ofExcept _).bind fun wait => ?_
  refine blind_nextScope.bind fun scope => ?_
  have hinner := filters_aside (counterpart_create scope (Service.name r.kind)
    (Service.description r.kind) registry) (Service.blind_steps r)
  exact hinner.bind fun inner free h => filters_declare h c r.id _ _ wait _

theorem blind_stopServer (traffics : List Handle) (server : String × Handle) :
    (stopServer traffics server).Blind := by
  refine filters_scenario fun s => ?_
  rw [unchecked_name]
  exact (blind_note _).bind fun _ => (blind_stopJobs _ _).bind fun _ => blind_pure ()

theorem blind_draw (entity : String) (wait : WaitClause) (plot : TrafficPlot) :
    (draw entity wait plot).Blind := by
  refine (blind_extractJobs _).bind fun found => ?_
  split
  · exact blind_pure ()
  · exact (Launch.blind_one _ _).bind fun _ => (Launch.blind_one _ _).bind fun _ => blind_pure ()

theorem filters_steps (registry : JobRegistry) (records : List TrafficRecord)
    (plotEntity : Option String) :
    (steps registry records plotEntity).Filters Eq (steps .permissive records plotEntity) := by
  refine (blind_startServers records).bind fun servers => ?_
  refine (filters_foldlM (filters_startTraffic registry _) records {}).bind ?_
  rintro composer _ rfl
  refine filters_scenario fun s => ?_
  rw [unchecked_name]
  refine (blind_note _).bind fun _ => ?_
  refine (blind_forM (blind_stopServer _) servers).bind fun _ => ?_
  split
  · exact blind_forM (blind_draw _ _) plots
  · exact blind_pure ()

end TrafficMix

namespace NetworkDelay

theorem blind_measure (order : Order) (client : String) : (measure order client).Blind := by
  refine (blind_argument _ _).bind fun destination => ?_
  refine (blind_argument _ _).bind fun duration => ?_
  exact (Launch.blind_one _ _).bind fun _ => (Launch.blind_one _ _).bind fun _ => blind_pure ()

theorem blind_draw (entity : String) (measurement : Handle) : (draw entity measurement).Blind :=
  (blind_extractJobs _).bind fun _ =>
    (Launch.blind_one _ _).bind fun _ => (Launch.blind_one _ _).bind fun _ => blind_pure ()

theorem counterpart_blankMeasurement (scope : Scope) (registry : JobRegistry) (order : Order) :
    (blankMeasurement scope registry order).Counterpart
      (blankMeasurement scope .permissive order) := by
  cases order <;> exact counterpart_create _ _ _ _

theorem filters_steps (registry : JobRegistry) (request : Request) :
    (steps registry request).Filters Eq (steps .permissive request) := by
  refine blind_nextScope.bind fun scope => ?_
  have hmeasurement := filters_aside (counterpart_blankMeasurement scope registry request.order)
    (blind_measure request.order request.client)
  refine hmeasurement.bind fun measurement free h => ?_
  refine (filters_startScenario h _ _).bind ?_
  rintro handle _ rfl
  have hend : (do
      let s ← Build.scenario
      Build.note (.scenarioBuilt s.name s.functions.length) : Build Unit).Blind := by
    refine filters_scenario fun s => ?_
    rw [unchecked_name, unchecked_functions, List.length_map]
    exact blind_note _
  split
  · exact (blind_draw _ handle).bind fun _ => hend
  · exact (blind_pure ()).bind fun _ => hend

end NetworkDelay

/-- The result of building under a registry beside the one without it: a job was refused, or both
failed in the same way, or both scenarios have the same text. Unless a job was refused, the same
happened on the way. -/
inductive Build.OnlyFiltered :
    Except Failure Scenario × List Event → Except Failure Scenario × List Event → Prop
  | written {s t : Scenario} (events : List Event)
      (texts : ∀ style, ∃ text, s.toText style = .ok text ∧ t.toText style = .ok text) :
      OnlyFiltered (.ok s, events) (.ok t, events)
  | failed (failure : Failure) (events : List Event) :
      OnlyFiltered (.error failure, events) (.error failure, events)
  | refused {failure : Failure} (h : failure.IsRefusal) (events : List Event)
      (result : Except Failure Scenario × List Event) :
      OnlyFiltered (.error failure, events) result

theorem Build.Filters.run {start start' : Scenario} (hstart : start.Counterpart start')
    {steps free : Build Unit} (h : steps.Filters Eq free) :
    OnlyFiltered (run start steps) (run start' free) := by
  have hsteps := h ⟨start, []⟩ ⟨start', []⟩ ⟨hstart, rfl⟩
  simp only [Build.run]
  generalize steps ⟨start, []⟩ = result at hsteps ⊢
  generalize free ⟨start', []⟩ = result' at hsteps ⊢
  cases hsteps with
  | @yielded _ _ d e _ draft =>
      obtain ⟨⟨hreachable, heq⟩, hjournal⟩ := draft
      simp only [hjournal]
      refine .written d.journal fun style => ?_
      rw [heq]
      exact hreachable.same_text hreachable.unchecked (outline_unchecked _) style
  | @failed failure d e hjournal =>
      simp only [hjournal]
      exact .failed failure d.journal
  | refused hrefusal d _ => exact .refused hrefusal _ _

/-- Registries only filter. The scenario of any traffics and the comparison of round trip times are
built as they are without the registry, unless a job is refused, and what is built has the same
text; and a sequence of calls none of which is refused is answered in the same way without
registries and leads to the same text. -/
theorem JobRegistry.only_filters (registry : JobRegistry) :
    (∀ scope records plotEntity, OnlyFiltered
      (TrafficMix.build scope registry records plotEntity)
      (TrafficMix.build scope .permissive records plotEntity)) ∧
    (∀ scope request, OnlyFiltered (NetworkDelay.build scope registry request)
      (NetworkDelay.build scope .permissive request)) ∧
    ∀ (scope : Scope) (name description : String) (calls calls' : List Call),
      calls'.map Call.unchecked = calls.map Call.unchecked →
      (∀ c ∈ calls ++ calls', ∀ inner, c.embedded? = some inner → inner.Reachable) →
      (∀ outcome ∈ (create scope name description registry).answers (calls.map .call),
        ∃ answer, outcome = .ok answer) →
      (create scope name description .permissive).answers (calls'.map .call) =
          (create scope name description registry).answers (calls.map .call) ∧
        ∀ style, ∃ text,
          ((create scope name description registry).run (calls.map .call)).toText style =
              .ok text ∧
            ((create scope name description .permissive).run (calls'.map .call)).toText style =
              .ok text := by
  refine ⟨?_, ?_, ?_⟩
  · exact fun scope records plotEntity =>
      (TrafficMix.filters_steps registry records plotEntity).run (counterpart_create _ _ _ registry)
  · exact fun scope request =>
      (NetworkDelay.filters_steps registry request).run (counterpart_create _ _ _ registry)
  · intro scope name description calls calls' hcalls hembedded hok
    have hcreated : (create scope name description .permissive).unchecked =
        (create scope name description registry).unchecked := by
      rw [unchecked_create, unchecked_create]
    obtain ⟨hanswers, hrun⟩ := answers_permissive hcreated rfl hcalls hok
    refine ⟨hanswers, fun style => ?_⟩
    refine Reachable.same_text ?_ ?_ ?_ style
    · refine Reachable.run_of_embedded (.created scope name description registry) ?_
      intro c hc
      exact hembedded c (List.mem_append_left _ (by simpa using hc))
    · refine Reachable.run_of_embedded (.created scope name description .permissive) ?_
      intro c hc
      exact hembedded c (List.mem_append_right _ (by simpa using hc))
    · rw [← outline_unchecked, hrun, outline_unchecked]

section Sample

/-- Starts the worker, and a server. -/
def launching : List Call :=
  [.startScenario worker [("size", .literal (.ofNat 5))] {},
    .startJob { job := "apache2", entity := "server" } {}]

/-- The strict registry of this library refuses none of the calls. -/
theorem launching_filtered :
    (create (.root 2) "starter" "").answers (launching.map .call) =
        [.ok (.reply (.function ⟨.root 2, 0, .startScenario⟩)),
          .ok (.reply (.function ⟨.root 2, 1, .startJob⟩))] ∧
      ∀ style, ∃ text,
        ((create (.root 2) "starter" "" (.builtin true)).run (launching.map .call)).toText style =
            .ok text ∧
          ((create (.root 2) "starter" "").run (launching.map .call)).toText style = .ok text := by
  have hanswers : (create (.root 2) "starter" "" (.builtin true)).answers (launching.map .call) =
      [.ok (.reply (.function ⟨.root 2, 0, .startScenario⟩)),
        .ok (.reply (.function ⟨.root 2, 1, .startJob⟩))] := by rfl
  have hembedded : ∀ c ∈ launching ++ launching, ∀ inner, c.embedded? = some inner →
      inner.Reachable := by
    intro c hc inner hinner
    have hmem : c ∈ launching := by simpa using hc
    rcases List.mem_pair.mp hmem with rfl | rfl
    · obtain rfl := Option.some.inj hinner
      exact worker_reachable
    · cases hinner
  have hok : ∀ outcome ∈ (create (.root 2) "starter" "" (.builtin true)).answers
      (launching.map .call), ∃ answer, outcome = .ok answer := by
    rw [hanswers]
    simp
  obtain ⟨-, -, hcalls⟩ := (JobRegistry.builtin true).only_filters
  obtain ⟨hsame, htexts⟩ := hcalls (.root 2) "starter" "" launching launching rfl hembedded hok
  exact ⟨hsame.trans hanswers, htexts⟩

end Sample

end Orchestration
