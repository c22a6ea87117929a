import Orchestration.Proofs.Scenario.Following
import Orchestration.Proofs.Traffic.Layout

/-!
In which order the functions of many traffics can happen. Every chain of traffics that wait for each
other starts with one that waits for the servers, so no traffic comes before a server; and whatever
closes the scenario comes after all traffics.
-/

namespace Orchestration

namespace ScenarioFunction

def IsServer (f : ScenarioFunction) : Prop :=
  ∃ launch, f.payload = .startJob launch ∧
    (launch.job = "dash player&server" ∨ launch.job = "apache2")

def IsTraffic (f : ScenarioFunction) : Prop := f.kind = .startScenario

def IsStop (f : ScenarioFunction) : Prop := f.kind = .stopJobs

def IsFigure (f : ScenarioFunction) : Prop :=
  ∃ launch, f.payload = .startJob launch ∧
    (launch.job = "time_series" ∨ launch.job = "histogram")

variable {f : ScenarioFunction}

theorem IsServer.kind (h : f.IsServer) : f.kind = .startJob := by
  obtain ⟨launch, hpayload, -⟩ := h
  rw [ScenarioFunction.kind, hpayload]
  rfl

theorem IsFigure.kind (h : f.IsFigure) : f.kind = .startJob := by
  obtain ⟨launch, hpayload, -⟩ := h
  rw [ScenarioFunction.kind, hpayload]
  rfl

theorem IsServer.not_isFigure (h : f.IsServer) : ¬ f.IsFigure := by
  obtain ⟨launch, hpayload, hserver⟩ := h
  rintro ⟨other, hother, hfigure⟩
  obtain rfl : launch = other := by simpa [hpayload] using hother
  rcases hserver with hjob | hjob <;> simp [hjob] at hfigure

end ScenarioFunction

namespace TrafficMix

open Scenario Build

variable {scope : Scope} {registry : JobRegistry} {records : List TrafficRecord}
  {plotEntity : Option String} {s : Scenario}

section Roles

/-- What a function of the scenario is there for, and what it waits for. -/
inductive Placed (scope : Scope) (registry : JobRegistry) (records : List TrafficRecord) :
    ScenarioFunction → Prop
  | server {i : Nat} {launch : JobLaunch} (hlaunch : (serverLaunches records)[i]? = some launch) :
    Placed scope registry records ⟨i, .startJob launch, {}⟩
  | traffic {i : Nat} {r : TrafficRecord} (hr : records[i]? = some r) :
    Placed scope registry records ⟨(serverLaunches records).length + i,
      .startScenario (embedded scope registry records r) (Service.bindings r),
      trafficWait scope records r⟩
  | stop {id : FunctionId} {i : Nat} :
    Placed scope registry records ⟨id, .stopJobs [.own scope i],
      afterTraffics scope records stopDelay⟩
  | figure {id : FunctionId} {launch : JobLaunch}
      (hjob : launch.job = "time_series" ∨ launch.job = "histogram") :
    Placed scope registry records ⟨id, .startJob launch, afterTraffics scope records plotDelay⟩

theorem isServer_of_mem {launch : JobLaunch} (h : launch ∈ serverLaunches records)
    (id : FunctionId) (wait : WaitClause) :
    ScenarioFunction.IsServer ⟨id, .startJob launch, wait⟩ := by
  obtain ⟨entity, rfl | rfl⟩ := exists_of_mem_serverLaunches h
  · exact ⟨_, rfl, .inl rfl⟩
  · exact ⟨_, rfl, .inr rfl⟩

theorem wait_of_mem_figureFunctions {f : Payload × WaitClause}
    (hf : f ∈ figureFunctions scope records plotEntity) :
    f.2 = afterTraffics scope records plotDelay := by
  cases plotEntity with
  | none => cases hf
  | some entity =>
      obtain ⟨plot, -, hf⟩ := List.mem_flatMap.mp hf
      unfold drawn at hf
      split at hf
      · cases hf
      · simp only [List.mem_cons, List.not_mem_nil, or_false] at hf
        rcases hf with rfl | rfl <;> rfl

theorem Built.placed (h : Built scope registry records plotEntity s) {f : ScenarioFunction}
    (hf : f ∈ s.functions) : Placed scope registry records f := by
  rw [h.functions_eq, arranged, numbered_append, numbered_append, numbered_append] at hf
  simp only [List.mem_append, or_assoc] at hf
  rcases hf with hserver | htraffic | hstop | hfigure
  · obtain ⟨i, launch, hlaunch, rfl⟩ := mem_numbered_map.mp hserver
    rw [Nat.zero_add]
    exact .server hlaunch
  · obtain ⟨i, r, hr, rfl⟩ := mem_numbered_map.mp htraffic
    rw [Nat.zero_add, length_serverFunctions]
    exact .traffic hr
  · obtain ⟨i, place, -, rfl⟩ := mem_numbered_map.mp hstop
    exact .stop
  · have hmem := mem_of_mem_numbered hfigure
    obtain ⟨launch, hpayload, hjob⟩ := drawsOnly_figureFunctions plotEntity _ hmem
    have hwait := wait_of_mem_figureFunctions hmem
    obtain ⟨id, payload, wait⟩ := f
    dsimp only at hpayload hwait
    rw [hpayload, hwait]
    exact .figure hjob

variable {f : ScenarioFunction}

theorem Placed.id_lt (h : Placed scope registry records f) (hserver : f.IsServer) :
    f.id < (serverLaunches records).length := by
  cases h with
  | server hlaunch => exact (List.getElem?_eq_some_iff.mp hlaunch).1
  | traffic hr => cases hserver.kind
  | stop => cases hserver.kind
  | figure hjob => exact absurd ⟨_, rfl, hjob⟩ hserver.not_isFigure

theorem Placed.place (h : Placed scope registry records f) (htraffic : f.IsTraffic) :
    ∃ i r, records[i]? = some r ∧ f.id = (serverLaunches records).length + i := by
  cases h with
  | server hlaunch => cases htraffic
  | traffic hr => exact ⟨_, _, hr, rfl⟩
  | stop => cases htraffic
  | figure hjob => cases htraffic

theorem Placed.wait_eq (h : Placed scope registry records f) (hcloses : f.IsStop ∨ f.IsFigure) :
    ∃ delay, f.wait = afterTraffics scope records delay := by
  cases h with
  | server hlaunch =>
      rcases hcloses with hstop | hfigure
      · cases hstop
      · exact absurd hfigure (isServer_of_mem (List.mem_of_getElem? hlaunch) _ _).not_isFigure
  | traffic hr =>
      rcases hcloses with hstop | hfigure
      · cases hstop
      · cases hfigure.kind
  | stop => exact ⟨_, rfl⟩
  | figure hjob => exact ⟨_, rfl⟩

end Roles

section Order

variable {trace : List Occurrence} {i : Nat} {r : TrafficRecord}

/-- A traffic waits for all servers, or for a traffic that stands before it. -/
theorem Built.waits_or (h : Built scope registry records plotEntity s)
    (hr : records[i]? = some r) :
    (∀ j < (serverLaunches records).length,
      .own scope j ∈ (trafficWait scope records r).references) ∨
    ∃ k < i, ∃ other, records[k]? = some other ∧
      .own scope ((serverLaunches records).length + k) ∈
        (trafficWait scope records r).references := by
  simp only [mem_references_trafficWait]
  by_cases hnone : r.waits = []
  · left
    intro j hj
    have hservers : serverLaunches records ≠ [] :=
      List.ne_nil_of_length_pos (Nat.zero_lt_of_lt hj)
    have halone : r.hasDependencies = false := TrafficRecord.waits_eq_nil_iff.mp hnone
    rw [if_neg (by simp [halone, hservers])]
    exact ⟨j, hj, rfl⟩
  · right
    have hdependencies : r.hasDependencies = true := by
      rwa [← Bool.not_eq_false, ← TrafficRecord.waits_eq_nil_iff]
    obtain ⟨id, hid⟩ := List.exists_mem_of_ne_nil _ hnone
    obtain ⟨k, hk, other, hother, rfl⟩ := h.wellDeclared.exists_lt hr hid
    refine ⟨k, hk, other, hother, ?_⟩
    rw [if_pos (.inl hdependencies)]
    exact ⟨other.id, hid, congrArg (Reference.own scope) (h.trafficId_eq hother)⟩

/-- By induction on the place of the traffic: it waits for the server, or for a traffic before
it. -/
theorem Built.follows_server (h : Built scope registry records plotEntity s)
    (htrace : s.RespectedBy trace) {server : ScenarioFunction} (hserver : server ∈ s.functions)
    (hlt : server.id < (serverLaunches records).length) (hr : records[i]? = some r) :
    Follows trace ⟨.launched, [], (serverLaunches records).length + i⟩
      ⟨.launched, [], server.id⟩ := by
  induction i using Nat.strong_induction_on generalizing r with
  | _ i ih =>
      have hf := List.mem_of_getElem? (h.getElem?_functions (getElem?_arranged_traffic hr))
      rcases h.waits_or hr with hall | ⟨k, hk, other, hother, hwait⟩
      · exact htrace.follows_launched hf hserver (hall server.id hlt)
      · have hg := List.mem_of_getElem? (h.getElem?_functions (getElem?_arranged_traffic hother))
        exact (htrace.follows_launched hf hg hwait).trans (ih k hk hother)

theorem Built.follows_traffic (h : Built scope registry records plotEntity s)
    (htrace : s.RespectedBy trace) (hr : records[i]? = some r) {f : ScenarioFunction}
    (hf : f ∈ s.functions) {delay : Duration} (hwait : f.wait = afterTraffics scope records delay) :
    Follows trace ⟨.launched, [], f.id⟩
      ⟨.finished, [], (serverLaunches records).length + i⟩ := by
  have hmem : trafficRef scope records r.id ∈ f.wait.finished := by
    have hid : r.id ∈ records.map (·.id) := List.mem_map_of_mem (List.mem_of_getElem? hr)
    rw [hwait]
    exact List.mem_map_of_mem (List.mem_mergeSort.mpr hid)
  have hfinished := htrace.waitFinished f hf _ hmem
  rw [trafficRef, h.trafficId_eq hr] at hfinished
  exact hfinished

end Order

/-- There is nothing else in the scenario of many traffics. -/
theorem role_of_build {scope : Scope} {registry : JobRegistry} {records : List TrafficRecord}
    {plotEntity : Option String} {s : Scenario}
    (h : (build scope registry records plotEntity).1 = .ok s) :
    ∀ f ∈ s.functions, f.IsServer ∨ f.IsTraffic ∨ f.IsStop ∨ f.IsFigure := by
  intro f hf
  cases (built_of_build h).placed hf with
  | server hlaunch => exact .inl (isServer_of_mem (List.mem_of_getElem? hlaunch) _ _)
  | traffic hr => exact .inr (.inl rfl)
  | stop => exact .inr (.inr (.inl rfl))
  | figure hjob => exact .inr (.inr (.inr ⟨_, rfl, hjob⟩))

/-- Whatever respects the clauses of a scenario of traffics launches no traffic before every server,
and stops no server and draws no figure before every traffic has finished. -/
theorem order_of_build {scope : Scope} {registry : JobRegistry} {records : List TrafficRecord}
    {plotEntity : Option String} {s : Scenario} {trace : List Occurrence}
    (h : (build scope registry records plotEntity).1 = .ok s) (htrace : s.RespectedBy trace) :
    (∀ traffic ∈ s.functions, traffic.IsTraffic → ∀ server ∈ s.functions, server.IsServer →
      Follows trace ⟨.launched, [], traffic.id⟩ ⟨.launched, [], server.id⟩) ∧
    ∀ f ∈ s.functions, f.IsStop ∨ f.IsFigure → ∀ traffic ∈ s.functions, traffic.IsTraffic →
      Follows trace ⟨.launched, [], f.id⟩ ⟨.finished, [], traffic.id⟩ := by
  have hbuilt := built_of_build h
  constructor
  · intro traffic hmem htraffic server hserver hkind
    obtain ⟨i, r, hr, hid⟩ := (hbuilt.placed hmem).place htraffic
    rw [hid]
    exact hbuilt.follows_server htrace hserver ((hbuilt.placed hserver).id_lt hkind) hr
  · intro f hf hcloses traffic hmem htraffic
    obtain ⟨i, r, hr, hid⟩ := (hbuilt.placed hmem).place htraffic
    obtain ⟨delay, hwait⟩ := (hbuilt.placed hf).wait_eq hcloses
    rw [hid]
    exact hbuilt.follows_traffic htrace hr hf hwait

section Sample

/-- A video, and web pages that are loaded once the video has started. -/
def sampleRecords : List TrafficRecord := [
  ⟨1, "server", "client", 60, [], [], 0, "10.0.0.1", "10.0.0.2", .dash "http/2" 5301⟩,
  ⟨2, "other", "client", 60, [1], [], 5, "10.0.0.3", "10.0.0.2", .webBrowsing 10 1⟩]

/-- Both servers are launched, then both traffics, one after the other; the second server's stop
ends it all. -/
def sampleTrace : List Occurrence :=
  [⟨.launched, [], 0⟩, ⟨.launched, [], 1⟩, ⟨.finished, [], 1⟩, ⟨.launched, [], 2⟩,
    ⟨.launched, [], 3⟩, ⟨.finished, [], 2⟩, ⟨.finished, [], 3⟩, ⟨.launched, [], 5⟩,
    ⟨.launched, [], 4⟩]

theorem sample_order : ∃ s,
    (build (.root 0) (.builtin true) sampleRecords none).1 = .ok s ∧ s.RespectedBy sampleTrace ∧
      s.functions.map ScenarioFunction.kind =
        [.startJob, .startJob, .startScenario, .startScenario, .stopJobs, .stopJobs] ∧
      (∀ traffic ∈ s.functions, traffic.IsTraffic → ∀ server ∈ s.functions, server.IsServer →
        Follows sampleTrace ⟨.launched, [], traffic.id⟩ ⟨.launched, [], server.id⟩) ∧
      ∀ f ∈ s.functions, f.IsStop ∨ f.IsFigure → ∀ traffic ∈ s.functions, traffic.IsTraffic →
        Follows sampleTrace ⟨.launched, [], f.id⟩ ⟨.finished, [], traffic.id⟩ := by
  have hrun : ((build (.root 0) (.builtin true) sampleRecords none).1.toOption.any fun s =>
      decide (s.RespectedBy sampleTrace ∧ s.functions.map ScenarioFunction.kind =
        [.startJob, .startJob, .startScenario, .startScenario, .stopJobs, .stopJobs])) = true := by
    decide +kernel
  cases hbuild : (build (.root 0) (.builtin true) sampleRecords none).1 with
  | error failure => simp [hbuild, Except.toOption] at hrun
  | ok s =>
      simp only [hbuild, Except.toOption, Option.any_some, decide_eq_true_eq] at hrun
      exact ⟨s, rfl, hrun.1, hrun.2, order_of_build hbuild hrun.1⟩

end Sample

end TrafficMix

end Orchestration
