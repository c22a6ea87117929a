import Orchestration.Proofs.Scenario.Growth
import Orchestration.Proofs.Scenario.Values
import Orchestration.Traffic.Mix

namespace Orchestration

namespace JobRegistry

/-- The registry knows the job and takes the keys together, whatever stands under them. -/
def takes (registry : JobRegistry) (job : String) (keys : List String) : Bool :=
  (registry.get? job).any fun d => d.required.all keys.contains && keys.all d.accepts

theorem check_eq_ok_of_takes {registry : JobRegistry} {j : JobLaunch} {keys : List String}
    (htakes : registry.takes j.job keys = true)
    (hkeys : ∀ key, key ∈ Entries.keys j.arguments ↔ key ∈ keys) : registry.check j = .ok () := by
  cases hget : registry.get? j.job with
  | none => simp [takes, hget] at htakes
  | some d =>
      simp only [takes, hget, Option.any_some, Bool.and_eq_true, List.all_eq_true] at htakes
      obtain ⟨hrequired, haccepted⟩ := htakes
      have hmissing : (d.required.find? fun key => !j.hasArgument key) = none := by
        rw [List.find?_eq_none]
        intro key hkey
        have hmem : key ∈ keys := by simpa using hrequired key hkey
        simpa [JobLaunch.hasArgument, Entries.has_iff] using (hkeys key).mpr hmem
      have hunexpected : ((Entries.keys j.arguments).find? fun key => !d.accepts key) = none := by
        rw [List.find?_eq_none]
        intro key hkey
        simpa using haccepted key ((hkeys key).mp hkey)
      simp [check, hget, hmissing, hunexpected]

end JobRegistry

namespace Scenario

variable {s : Scenario}

theorem holdsAll_literal (value : Json) : s.HoldsAll (.literal value) := by
  intro r hr
  simp [ParameterValue.references] at hr

theorem holdsAll_argument {ref : ArgumentRef} (hscope : ref.scope = s.parameters.scope)
    (hname : ref.name ∈ s.parameters.arguments.map Argument.name) :
    s.HoldsAll (.argument ref) := by
  intro r hr
  obtain rfl : r = .argument ref := by simpa [ParameterValue.references] using hr
  exact ⟨hscope, ParameterTable.argument?_isSome_iff.mpr hname⟩

theorem holdsAll_function {r : Reference} (h : s.Resolves r) : s.HoldsAll (.function r) := by
  intro other hother
  obtain rfl : other = .function r := by simpa [ParameterValue.references] using hother
  exact h

theorem holdsAll_list {items : List ParameterValue} (h : ∀ item ∈ items, s.HoldsAll item) :
    s.HoldsAll (.list items) := by
  intro r hr
  obtain ⟨item, hitem, hr⟩ := ParameterValue.mem_itemReferences.mp hr
  exact h item hitem r hr

theorem holdsAll_ofPairs {pairs : List (String × ParameterValue)}
    (h : ∀ pair ∈ pairs, s.HoldsAll pair.2) : s.HoldsAll (.ofPairs pairs) := by
  intro r hr
  obtain ⟨pair, hpair, hr⟩ := ParameterValue.mem_entryReferences.mp hr
  exact h pair (Entries.mem_of_mem_ofList hpair) r hr

/-- Everything that the values of a launch refer to is there. -/
def HoldsLaunch (s : Scenario) (j : JobLaunch) : Prop := ∀ v ∈ j.values, s.HoldsAll v

theorem holdsLaunch_ofPairs {job entity : String} {pairs : List (String × ParameterValue)}
    (h : ∀ pair ∈ pairs, s.HoldsAll pair.2) :
    s.HoldsLaunch { job := job, entity := entity, arguments := Entries.ofList pairs } := by
  intro v hv
  simp only [JobLaunch.values, Option.map_none, Option.getD_none, List.append_nil,
    List.mem_map] at hv
  obtain ⟨pair, hpair, rfl⟩ := hv
  exact h pair (Entries.mem_of_mem_ofList hpair)

theorem holdsLaunch_bare {job entity : String} :
    s.HoldsLaunch { job := job, entity := entity } :=
  holdsLaunch_ofPairs (List.forall_mem_nil _)

theorem HoldsLaunch.withArgument {j : JobLaunch} (h : s.HoldsLaunch j) (key : String)
    {value : ParameterValue} (hvalue : s.HoldsAll value) :
    s.HoldsLaunch (j.withArgument key value) := by
  intro v hv
  rcases List.mem_append.mp hv with hv | hv
  · obtain ⟨entry, hentry, rfl⟩ := List.mem_map.mp hv
    rcases Entries.eq_or_mem_of_mem_insert hentry with rfl | hentry
    · exact hvalue
    · exact h _ (List.mem_append_left _ (List.mem_map_of_mem hentry))
  · exact h v (List.mem_append_right _ hv)

theorem HoldsLaunch.withEndpoint {j : JobLaunch} (h : s.HoldsLaunch j) {address : ParameterValue}
    {port : Option ParameterValue} (haddress : s.HoldsAll address)
    (hport : ∀ value ∈ port, s.HoldsAll value) : s.HoldsLaunch (j.withEndpoint address port) := by
  intro v hv
  rcases List.mem_append.mp hv with hv | hv
  · exact h v (List.mem_append_left _ hv)
  · rcases List.mem_cons.mp hv with rfl | hv
    · exact haddress
    · exact hport v (Option.mem_toList.mp hv)

end Scenario

namespace JobLaunch

variable {j : JobLaunch} {key : String}

theorem mem_keys_withArgument {other : String} {value : ParameterValue} :
    key ∈ Entries.keys (j.withArgument other value).arguments ↔
      key = other ∨ key ∈ Entries.keys j.arguments :=
  Entries.mem_keys_insert

@[simp] theorem withEndpoint_arguments {address : ParameterValue} {port : Option ParameterValue} :
    (j.withEndpoint address port).arguments = j.arguments :=
  rfl

end JobLaunch

namespace Launch

/-- The launches that the scenarios of traffics are made of. -/
inductive Bundled : JobLaunch → Prop
  | transferServer (entity : String) (bind port : ParameterValue) :
      Bundled (transferServer entity bind port)
  | transferClient (entity : String) (serverIp : ParameterValue) (flow : Flow) :
      Bundled (transferClient entity serverIp flow)
  | callReceiver (entity : String) (call : Call) : Bundled (callReceiver entity call)
  | callSender (entity : String) (call : Call) : Bundled (callSender entity call)
  | webClient (entity : String) (runs parallelRuns duration : ParameterValue) :
      Bundled (webClient entity runs parallelRuns duration)
  | videoClient (entity : String) (serverIp protocol tornadoPort duration : ParameterValue) :
      Bundled (videoClient entity serverIp protocol tornadoPort duration)
  | dashServer (entity : String) : Bundled { job := "dash player&server", entity := entity }
  | apache2 (entity : String) : Bundled { job := "apache2", entity := entity }
  | timeSeries (plot : Plot) (entity : String) (jobs : List Reference) :
      Bundled (plot.timeSeriesLaunch entity jobs)
  | histogram (plot : Plot) (entity : String) (jobs : List Reference) (bins : Nat)
      (cumulative : Bool) : Bundled (plot.histogramLaunch entity jobs bins cumulative)

/-- The keys that a plot sets. -/
def Plot.keys (plot : Plot) : List String :=
  (if plot.legends.isEmpty then [] else ["legend"]) ++ ["title", "label", "statistics", "jobs"]

theorem Plot.mem_keys_apply {plot : Plot} {jobs : List Reference} {launch : JobLaunch}
    {key : String} :
    key ∈ Entries.keys (plot.apply jobs launch).arguments ↔
      key ∈ plot.keys ∨ key ∈ Entries.keys launch.arguments := by
  unfold Plot.apply Plot.keys
  split <;> simp [JobLaunch.mem_keys_withArgument, or_assoc]

theorem Plot.apply_job {plot : Plot} {jobs : List Reference} {launch : JobLaunch} :
    (plot.apply jobs launch).job = launch.job := by
  unfold Plot.apply
  split <;> rfl

theorem Plot.apply_entity {plot : Plot} {jobs : List Reference} {launch : JobLaunch} :
    (plot.apply jobs launch).entity = launch.entity := by
  unfold Plot.apply
  split <;> rfl

theorem Plot.takes_keys (plot : Plot) (strict : Bool) :
    (JobRegistry.builtin strict).takes "time_series" plot.keys = true ∧
      (JobRegistry.builtin strict).takes "histogram" (["cumulative", "bins"] ++ plot.keys) =
        true := by
  unfold Plot.keys
  cases strict <;> split <;> decide +kernel

/-- The registry of this library takes every one of these launches. -/
theorem Bundled.accepted {launch : JobLaunch} (h : Bundled launch) (strict : Bool) :
    (JobRegistry.builtin strict).check launch = .ok () := by
  have haccepted : ∀ (job : String) (keys : List String),
      (JobRegistry.builtin strict).takes job keys = true → launch.job = job →
        (∀ key, key ∈ Entries.keys launch.arguments ↔ key ∈ keys) →
          (JobRegistry.builtin strict).check launch = .ok () := by
    rintro _ keys htakes rfl hkeys
    exact JobRegistry.check_eq_ok_of_takes htakes hkeys
  cases h with
  | transferServer entity bind port =>
      refine haccepted "iperf3" ["server", "num_flows", "port"] ?_ rfl ?_
      · cases strict <;> decide +kernel
      · simp [Launch.transferServer, JobLaunch.mem_keys_withArgument]
  | transferClient entity serverIp flow =>
      refine haccepted "iperf3" ["client", "num_flows", "port"] ?_ rfl ?_
      · cases strict <;> decide +kernel
      · simp [Launch.transferClient, JobLaunch.mem_keys_withArgument]
  | callReceiver entity call =>
      refine haccepted "voip_qoe_dest" ["starting_port"] ?_ rfl ?_
      · cases strict <;> decide +kernel
      · simp [Launch.callReceiver, JobLaunch.mem_keys_withArgument]
  | callSender entity call =>
      refine haccepted "voip_qoe_src"
        ["src_addr", "dest_addr", "codec", "duration", "starting_port"] ?_ rfl ?_
      · cases strict <;> decide +kernel
      · simp [Launch.callSender, Entries.mem_keys_ofList]
  | webClient entity runs parallelRuns duration =>
      refine haccepted "web_browsing_qoe" ["nb_runs", "nb_parallel_runs", "duration"] ?_ rfl ?_
      · cases strict <;> decide +kernel
      · simp [Launch.webClient, Entries.mem_keys_ofList]
  | videoClient entity serverIp protocol tornadoPort duration =>
      refine haccepted "dash client" ["dst_ip", "protocol", "tornado_port", "duration"] ?_ rfl ?_
      · cases strict <;> decide +kernel
      · simp [Launch.videoClient, Entries.mem_keys_ofList]
  | dashServer entity =>
      refine haccepted "dash player&server" [] ?_ rfl ?_
      · cases strict <;> decide +kernel
      · simp
  | apache2 entity =>
      refine haccepted "apache2" [] ?_ rfl ?_
      · cases strict <;> decide +kernel
      · simp
  | timeSeries plot entity jobs =>
      refine haccepted "time_series" plot.keys (plot.takes_keys strict).1 ?_ ?_
      · unfold Plot.timeSeriesLaunch
        rw [Plot.apply_job]
      · simp [Plot.timeSeriesLaunch, Plot.mem_keys_apply]
  | histogram plot entity jobs bins cumulative =>
      refine haccepted "histogram" (["cumulative", "bins"] ++ plot.keys) (plot.takes_keys strict).2
        ?_ ?_
      · unfold Plot.histogramLaunch
        exact plot.apply_job
      · simp [Plot.histogramLaunch, JobLaunch.mem_keys_withArgument, Plot.mem_keys_apply]

section Values

open Scenario

variable {s : Scenario} {entity : String}

theorem holdsLaunch_transferServer {bind port : ParameterValue} (hbind : s.HoldsAll bind)
    (hport : s.HoldsAll port) : s.HoldsLaunch (transferServer entity bind port) := by
  have hserver : s.HoldsAll (.ofPairs [("bind", bind), ("exit", .bool true)]) := by
    apply holdsAll_ofPairs
    simp only [List.forall_mem_cons]
    exact ⟨hbind, holdsAll_literal _, by simp⟩
  exact (((holdsLaunch_bare.withArgument "port" hport).withArgument "num_flows"
    (holdsAll_literal _)).withArgument "server" hserver).withEndpoint hbind
      fun value hvalue => Option.some.inj hvalue ▸ hport

theorem holdsLaunch_transferClient {serverIp : ParameterValue} {flow : Flow}
    (hserver : s.HoldsAll serverIp) (hport : s.HoldsAll flow.port) (hsize : s.HoldsAll flow.size)
    (htos : s.HoldsAll flow.tos) (hmss : s.HoldsAll flow.mss) :
    s.HoldsLaunch (transferClient entity serverIp flow) := by
  have hclient : s.HoldsAll (.ofPairs [("server_ip", serverIp), ("transmitted_size", flow.size),
      ("tos", flow.tos), ("mss", flow.mss)]) := by
    apply holdsAll_ofPairs
    simp only [List.forall_mem_cons]
    exact ⟨hserver, hsize, htos, hmss, by simp⟩
  exact ((holdsLaunch_bare.withArgument "port" hport).withArgument "num_flows"
    (holdsAll_literal _)).withArgument "client" hclient

theorem holdsLaunch_callReceiver {call : Call} (hport : s.HoldsAll call.port) :
    s.HoldsLaunch (callReceiver entity call) :=
  holdsLaunch_bare.withArgument "starting_port" hport

theorem holdsLaunch_callSender {call : Call} (hsource : s.HoldsAll call.sourceIp)
    (hdestination : s.HoldsAll call.destinationIp) (hport : s.HoldsAll call.port)
    (hcodec : s.HoldsAll call.codec) (hduration : s.HoldsAll call.duration) :
    s.HoldsLaunch (callSender entity call) := by
  refine (holdsLaunch_ofPairs ?_).withEndpoint hdestination fun value hvalue =>
    Option.some.inj hvalue ▸ hport
  simp only [List.forall_mem_cons]
  exact ⟨hsource, hdestination, hcodec, hduration, hport, by simp⟩

theorem holdsLaunch_webClient {runs parallelRuns duration : ParameterValue}
    (hruns : s.HoldsAll runs) (hparallel : s.HoldsAll parallelRuns)
    (hduration : s.HoldsAll duration) :
    s.HoldsLaunch (webClient entity runs parallelRuns duration) := by
  apply holdsLaunch_ofPairs
  simp only [List.forall_mem_cons]
  exact ⟨hruns, hparallel, hduration, by simp⟩

theorem holdsLaunch_videoClient {serverIp protocol tornadoPort duration : ParameterValue}
    (hserver : s.HoldsAll serverIp) (hprotocol : s.HoldsAll protocol)
    (htornado : s.HoldsAll tornadoPort) (hduration : s.HoldsAll duration) :
    s.HoldsLaunch (videoClient entity serverIp protocol tornadoPort duration) := by
  refine (holdsLaunch_ofPairs ?_).withEndpoint hserver (by simp)
  simp only [List.forall_mem_cons]
  exact ⟨hserver, hprotocol, htornado, hduration, by simp⟩

theorem holdsAll_figure {items : List ParameterValue} (h : ∀ item ∈ items, s.HoldsAll item) :
    s.HoldsAll (Plot.figure items) := by
  apply holdsAll_list
  simp only [List.forall_mem_singleton]
  exact holdsAll_list h

theorem holdsLaunch_apply {plot : Plot} {jobs : List Reference} {launch : JobLaunch}
    (hjobs : ∀ r ∈ jobs, s.Resolves r) (h : s.HoldsLaunch launch) :
    s.HoldsLaunch (plot.apply jobs launch) := by
  have hfigure : s.HoldsAll (Plot.figure (jobs.map .function)) := by
    apply holdsAll_figure
    exact List.forall_mem_map.mpr fun r hr => holdsAll_function (hjobs r hr)
  have htexts : ∀ texts : List String, s.HoldsAll (Plot.figure (texts.map .text)) := by
    intro texts
    apply holdsAll_figure
    exact List.forall_mem_map.mpr fun _ _ => holdsAll_literal _
  have hcommon := (((h.withArgument "jobs" hfigure).withArgument "statistics"
    (htexts [plot.statistic])).withArgument "label" (htexts [plot.label])).withArgument "title"
      (htexts [plot.title])
  unfold Plot.apply
  split
  · exact hcommon
  · exact hcommon.withArgument "legend" (htexts plot.legends)

theorem holdsLaunch_timeSeries {plot : Plot} {jobs : List Reference}
    (hjobs : ∀ r ∈ jobs, s.Resolves r) : s.HoldsLaunch (plot.timeSeriesLaunch entity jobs) :=
  holdsLaunch_apply hjobs holdsLaunch_bare

theorem holdsLaunch_histogram {plot : Plot} {jobs : List Reference} {bins : Nat}
    {cumulative : Bool} (hjobs : ∀ r ∈ jobs, s.Resolves r) :
    s.HoldsLaunch (plot.histogramLaunch entity jobs bins cumulative) :=
  ((holdsLaunch_apply hjobs holdsLaunch_bare).withArgument "bins"
    (holdsAll_literal _)).withArgument "cumulative" (holdsAll_literal _)

end Values

end Launch

end Orchestration
