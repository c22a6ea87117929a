import Orchestration.Proofs.Scenario.Series
import Orchestration.Proofs.Traffic.Launches

namespace Orchestration.Service

open Scenario Build

/-- The arguments of the scenario, which are all to be bound. -/
def arguments (r : TrafficRecord) : List Argument :=
  match r.parameters with
  | .dataTransfer _ _ _ _ =>
    [⟨"dest_ip", "Address the iperf3 server binds to", none⟩,
      ⟨"port", "Port of the iperf3 server", none⟩,
      ⟨"duration", "Upper bound of the transfer duration", none⟩]
  | .voip _ _ =>
    [⟨"dest_ip", "Address of the call receiver", none⟩,
      ⟨"port", "First port used by the call", none⟩, ⟨"duration", "Duration of the call", none⟩]
  | .webBrowsing _ _ => [⟨"duration", "Duration of the browsing session", none⟩]
  | .dash _ _ => [⟨"duration", "Duration of the video session", none⟩]

/-- The functions of the scenario: a server and its client, a call's receiver, its sender and the
stop of its receiver, or one client. -/
def functions (scope : Scope) (r : TrafficRecord) : List (Payload × WaitClause) :=
  let destinationIp := ParameterValue.argument ⟨scope, "dest_ip"⟩
  let port := ParameterValue.argument ⟨scope, "port"⟩
  let duration := ParameterValue.argument ⟨scope, "duration"⟩
  match r.parameters with
  | .dataTransfer _ size tos mtu =>
    let flow : Launch.Flow := ⟨port, .text size, .natural tos, .natural mtu⟩
    [(.startJob (Launch.transferServer r.destination destinationIp port), {}),
      (.startJob (Launch.transferClient r.source destinationIp flow),
        { launched := [.own scope 0], delay := Launch.clientDelay })]
  | .voip _ codec =>
    let call : Launch.Call := ⟨.text r.sourceIp, destinationIp, port, .text codec, duration⟩
    [(.startJob (Launch.callReceiver r.destination call), {}),
      (.startJob (Launch.callSender r.source call),
        { launched := [.own scope 0], delay := Launch.voipSourceDelay }),
      (.stopJobs [.own scope 0], { finished := [.own scope 1], delay := stopDelay })]
  | .webBrowsing runs parallelRuns =>
    [(.startJob (Launch.webClient r.destination (.natural runs) (.natural parallelRuns) duration),
      {})]
  | .dash protocol tornadoPort =>
    [(.startJob (Launch.videoClient r.destination (.text r.sourceIp) (.text protocol)
      (.natural tornadoPort) duration), {})]

/-- The scenario of a traffic as a whole. -/
def filled (scope : Scope) (registry : JobRegistry) (r : TrafficRecord) : Scenario :=
  ((arguments r).foldl Scenario.withArgument (blank scope registry r)).withFunctions
    (functions scope r)

theorem filled_functions (scope : Scope) (registry : JobRegistry) (r : TrafficRecord) :
    (filled scope registry r).functions = numbered 0 (functions scope r) := by
  unfold filled
  rw [functions_withFunctions]
  unfold arguments
  split <;> rfl

section Content

variable (scope : Scope) (registry : JobRegistry) (r : TrafficRecord)

theorem filled_scope : (filled scope registry r).scope = scope := by
  rw [filled, scope_withFunctions]
  unfold arguments
  split <;> rfl

theorem filled_arguments : (filled scope registry r).parameters.arguments = arguments r := by
  rw [filled, withFunctions_eq]
  unfold arguments
  split <;> rfl

theorem mem_names_arguments {name : String} :
    name ∈ (arguments r).map Argument.name ↔ name ∈ Entries.keys (bindings r) := by
  cases hr : r.parameters <;> simp [arguments, bindings, hr, Entries.mem_keys_ofList]

/-- A scenario of another scope can start the scenario of a traffic. -/
theorem binds_filled {owner : Scenario} (hscope : scope ≠ owner.scope) :
    owner.Binds (filled scope registry r) (bindings r) := by
  have hliteral : ∀ b ∈ bindings r, ∃ value, b.2 = .literal value := by
    intro b hb
    unfold bindings at hb
    split at hb
    all_goals
      have hpair := Entries.mem_of_mem_ofList hb
      simp only [List.mem_cons, List.not_mem_nil, or_false] at hpair
      rcases hpair with rfl | rfl | rfl <;> exact ⟨_, rfl⟩
  refine ⟨?_, ?_, ?_, ?_, ?_⟩
  · rw [filled_scope]
    exact hscope
  · intro a ha
    refine (mem_names_arguments r).mp (List.mem_map_of_mem ?_)
    rw [← filled_arguments scope registry]
    exact List.mem_of_mem_filter ha
  · intro b hb
    rw [ParameterTable.argument?_isSome_iff, filled_arguments]
    exact (mem_names_arguments r).mpr (List.mem_map_of_mem hb)
  · intro b hb reference hreference
    obtain ⟨value, hvalue⟩ := hliteral b hb
    simp [hvalue, ParameterValue.references] at hreference
  · intro b hb
    obtain ⟨value, hvalue⟩ := hliteral b hb
    rw [hvalue]
    exact holdsAll_literal value

theorem everywhere_blank : (blank scope registry r).Everywhere Intact :=
  (Reachable.created _ _ _ _).everywhere_intact

end Content

variable {scope : Scope} {registry : JobRegistry} {r : TrafficRecord}
  {refused : Failure → Prop}
  (hrefused : ∀ launch, Launch.Bundled launch → ∀ failure,
    registry.check launch = .error failure → refused failure)

include hrefused

/-- Only the registry refuses a launch whose values are there. -/
theorem ends_launch {s : Scenario} {launch : JobLaunch} {wait : WaitClause}
    (hlaunch : Launch.Bundled launch) (hs : s.Everywhere Intact) (hregistry : s.registry = registry)
    (hwait : ∀ reference ∈ wait.references, s.Resolves reference) (hheld : s.HoldsLaunch launch) :
    (startJob launch wait).Ends s refused fun handle t =>
      handle = ⟨s.scope, s.ids.next, .startJob⟩ ∧ t = s.withFunction (.startJob launch) wait ∧
        t.Everywhere Intact := by
  apply ends_startJob hs hwait hheld
  rw [hregistry]
  exact hrefused launch hlaunch

theorem ends_one {s : Scenario} {launch : JobLaunch} {wait : WaitClause}
    (hlaunch : Launch.Bundled launch) (hs : s.Everywhere Intact) (hregistry : s.registry = registry)
    (hwait : ∀ reference ∈ wait.references, s.Resolves reference) (hheld : s.HoldsLaunch launch) :
    (Launch.one launch wait).Ends s refused fun handles t =>
      handles = [⟨s.scope, s.ids.next, .startJob⟩] ∧
        t = s.withFunction (.startJob launch) wait ∧ t.Everywhere Intact := by
  refine (ends_launch hrefused hlaunch hs hregistry hwait hheld).bind ?_
  rintro handle t ⟨rfl, ht⟩
  exact ends_pure ⟨rfl, ht⟩

theorem ends_webBrowsing {runs parallelRuns : Nat}
    (hr : r.parameters = .webBrowsing runs parallelRuns) :
    (webBrowsing r runs parallelRuns).Ends (blank scope registry r) refused
      fun _ t => t = filled scope registry r ∧ t.Everywhere Intact := by
  unfold webBrowsing
  refine (ends_argument (everywhere_blank scope registry r) (by simp [blank, create,
    ParameterTable.uses])).bind ?_
  rintro _ _ ⟨rfl, rfl, hs⟩
  refine (ends_one hrefused (.webClient _ _ _ _) hs rfl (by simp) ?_).bind ?_
  · refine Launch.holdsLaunch_webClient (holdsAll_literal _) (holdsAll_literal _) ?_
    exact holdsAll_argument rfl (by simp [withArgument, blank, create])
  · rintro _ _ ⟨-, rfl, ht⟩
    refine ends_pure ⟨?_, ht⟩
    rw [filled, arguments, functions, hr]
    rfl

theorem ends_videoDash {protocol : String} {tornadoPort : Nat}
    (hr : r.parameters = .dash protocol tornadoPort) :
    (videoDash r protocol tornadoPort).Ends (blank scope registry r) refused
      fun _ t => t = filled scope registry r ∧ t.Everywhere Intact := by
  unfold videoDash
  refine (ends_argument (everywhere_blank scope registry r) (by simp [blank, create,
    ParameterTable.uses])).bind ?_
  rintro _ _ ⟨rfl, rfl, hs⟩
  refine (ends_one hrefused (.videoClient _ _ _ _ _) hs rfl (by simp) ?_).bind ?_
  · refine Launch.holdsLaunch_videoClient (holdsAll_literal _) (holdsAll_literal _)
      (holdsAll_literal _) ?_
    exact holdsAll_argument rfl (by simp [withArgument, blank, create])
  · rintro _ _ ⟨-, rfl, ht⟩
    refine ends_pure ⟨?_, ht⟩
    rw [filled, arguments, functions, hr]
    rfl

/-- The scenario in which a traffic is addressed from outside. -/
def addressed (scope : Scope) (registry : JobRegistry) (r : TrafficRecord)
    (destinationIp port duration : String) : Scenario :=
  (((blank scope registry r).withArgument ⟨"dest_ip", destinationIp, none⟩).withArgument
    ⟨"port", port, none⟩).withArgument ⟨"duration", duration, none⟩

omit hrefused in
theorem ends_addressed {destinationIp port duration : String}
    {next : ArgumentRef → ArgumentRef → ArgumentRef → Build Unit} {Q : Unit → Scenario → Prop}
    (h : (addressed scope registry r destinationIp port duration).Everywhere Intact →
      (next ⟨scope, "dest_ip"⟩ ⟨scope, "port"⟩ ⟨scope, "duration"⟩).Ends
        (addressed scope registry r destinationIp port duration) refused Q) :
    (do
      let destinationIp ← argument "dest_ip" destinationIp
      let port ← argument "port" port
      let duration ← argument "duration" duration
      next destinationIp port duration : Build Unit).Ends (blank scope registry r) refused Q := by
  refine (ends_argument (everywhere_blank scope registry r) (by simp [blank, create,
    ParameterTable.uses])).bind ?_
  rintro _ _ ⟨rfl, rfl, hs⟩
  refine (ends_argument hs (by simp [withArgument, blank, create, ParameterTable.uses])).bind ?_
  rintro _ _ ⟨rfl, rfl, hs⟩
  refine (ends_argument hs (by simp [withArgument, blank, create, ParameterTable.uses])).bind ?_
  rintro _ _ ⟨rfl, rfl, hs⟩
  exact h hs

omit hrefused in
theorem holdsAll_addressed {destinationIp port duration name : String} {t : Scenario}
    (ht : t.parameters = (addressed scope registry r destinationIp port duration).parameters)
    (hname : name ∈ ["dest_ip", "port", "duration"]) : t.HoldsAll (.argument ⟨scope, name⟩) := by
  apply holdsAll_argument
  · rw [ht]
    rfl
  · rw [ht]
    exact hname

theorem ends_dataTransfer {port : Nat} {size : String} {tos mtu : Nat}
    (hr : r.parameters = .dataTransfer port size tos mtu) :
    (dataTransfer r size tos mtu).Ends (blank scope registry r) refused
      fun _ t => t = filled scope registry r ∧ t.Everywhere Intact := by
  unfold dataTransfer
  apply ends_addressed
  intro hs
  refine Ends.bind (P := fun _ t => t = filled scope registry r ∧ t.Everywhere Intact) ?_
    fun _ _ h => ends_pure h
  refine (ends_one hrefused (.transferServer _ _ _) hs rfl (by simp) ?_).bind ?_
  · exact Launch.holdsLaunch_transferServer (holdsAll_addressed rfl (by simp))
      (holdsAll_addressed rfl (by simp))
  rintro _ _ ⟨rfl, rfl, ht⟩
  refine (ends_launch hrefused (.transferClient _ _ _) ht rfl ?_ ?_).bind ?_
  · intro reference hreference
    simp only [WaitClause.references_withDelay, WaitClause.mem_references_afterAllLaunched,
      WaitClause.references_nil, List.not_mem_nil, false_or, List.map_cons, List.map_nil,
      List.mem_singleton] at hreference
    rw [hreference]
    exact (namesOwn_withFunction ht.here).resolves
  · exact Launch.holdsLaunch_transferClient (holdsAll_addressed rfl (by simp))
      (holdsAll_addressed rfl (by simp)) (holdsAll_literal _) (holdsAll_literal _)
      (holdsAll_literal _)
  rintro _ _ ⟨-, rfl, hu⟩
  refine ends_pure ⟨?_, hu⟩
  rw [filled, arguments, functions, hr]
  rfl

/-- A call's receiver and its sender, which waits for it. -/
theorem ends_calling {s : Scenario} {source destination : String} {call : Launch.Call}
    (hs : s.Everywhere Intact) (hregistry : s.registry = registry)
    (hheld : ∀ value ∈ [call.sourceIp, call.destinationIp, call.port, call.codec, call.duration],
      s.HoldsAll value) :
    (Launch.voip source destination call {}).Ends s refused fun handles t =>
      handles = [⟨s.scope, s.ids.next, .startJob⟩, ⟨s.scope, s.ids.next + 1, .startJob⟩] ∧
        t = (s.withFunction (.startJob (Launch.callReceiver destination call)) {}).withFunction
          (.startJob (Launch.callSender source call))
          { launched := [.own s.scope s.ids.next], delay := Launch.voipSourceDelay } ∧
        t.Everywhere Intact ∧ t.NamesOwn .startJob (.own s.scope s.ids.next) ∧
        t.NamesOwn .startJob (.own s.scope (s.ids.next + 1)) := by
  simp only [List.forall_mem_cons] at hheld
  obtain ⟨hsource, hdestination, hport, hcodec, hduration, -⟩ := hheld
  have hextends :=
    hs.here.extends_withFunction (.startJob (Launch.callReceiver destination call)) {}
  unfold Launch.voip
  refine (ends_launch hrefused (.callReceiver _ _) hs hregistry (by simp)
    (Launch.holdsLaunch_callReceiver hport)).bind ?_
  rintro _ _ ⟨rfl, rfl, ht⟩
  have hreceiver := namesOwn_withFunction ht.here
  refine (ends_launch hrefused (.callSender _ _) ht hregistry ?_
    (Launch.holdsLaunch_callSender (hextends.holdsAll hsource) (hextends.holdsAll hdestination)
      (hextends.holdsAll hport) (hextends.holdsAll hcodec)
      (hextends.holdsAll hduration))).bind ?_
  · intro reference hreference
    simp only [WaitClause.references_withDelay, WaitClause.mem_references_afterLaunched,
      WaitClause.references_nil, List.not_mem_nil, false_or] at hreference
    rw [hreference]
    exact hreceiver.resolves
  · rintro _ _ ⟨rfl, rfl, hu⟩
    apply ends_pure
    exact ⟨rfl, rfl, hu, (ht.here.extends_withFunction _ _).namesOwn hreceiver,
      namesOwn_withFunction hu.here⟩

theorem ends_voip {port : Nat} {codec : String} (hr : r.parameters = .voip port codec) :
    (voip r codec).Ends (blank scope registry r) refused
      fun _ t => t = filled scope registry r ∧ t.Everywhere Intact := by
  unfold voip
  apply ends_addressed
  intro hs
  refine (ends_calling hrefused hs rfl ?_).bind ?_
  · simp only [List.forall_mem_cons]
    exact ⟨holdsAll_literal _, holdsAll_addressed rfl (by simp), holdsAll_addressed rfl (by simp),
      holdsAll_literal _, holdsAll_addressed rfl (by simp), by simp⟩
  rintro _ t ⟨rfl, rfl, ht, hreceiver, hsender⟩
  refine (ends_stopJobs ht ?_ ?_).bind ?_
  · intro reference hreference
    simp only [WaitClause.references_withDelay, WaitClause.mem_references_afterFinished,
      WaitClause.references_nil, List.not_mem_nil, false_or] at hreference
    rw [hreference]
    exact hsender.resolves
  · exact List.forall_mem_singleton.mpr hreceiver
  rintro _ _ ⟨-, rfl, hu⟩
  refine ends_pure ⟨?_, hu⟩
  rw [filled, arguments, functions, hr]
  rfl

/-- Whatever the traffic, its scenario is filled unless the registry refuses one of its jobs. -/
theorem ends_steps :
    (steps r).Ends (blank scope registry r) refused
      fun _ t => t = filled scope registry r ∧ t.Everywhere Intact := by
  unfold steps
  split
  next hr => exact ends_dataTransfer hrefused hr
  next hr => exact ends_voip hrefused hr
  next hr => exact ends_webBrowsing hrefused hr
  next hr => exact ends_videoDash hrefused hr

end Orchestration.Service
