import Orchestration.Proofs.Traffic.Drawing

namespace Orchestration.TrafficMix

open Scenario Build

variable {scope : Scope} {registry : JobRegistry} {records : List TrafficRecord} {i : Nat}

section Places

theorem getElem?_arranged_server {launch : JobLaunch}
    (h : (serverLaunches records)[i]? = some launch) :
    (arranged scope registry records)[i]? = some (.startJob launch, {}) := by
  rw [arranged, List.append_assoc]
  exact getElem?_server h _

theorem getElem?_arranged_traffic {r : TrafficRecord} (h : records[i]? = some r) :
    (arranged scope registry records)[(serverLaunches records).length + i]? =
      some (.startScenario (embedded scope registry records r) (Service.bindings r),
        trafficWait scope records r) := by
  have hi : i < (trafficFunctions scope registry records records).length := by
    rw [length_trafficFunctions]
    exact (List.getElem?_eq_some_iff.mp h).1
  rw [← length_serverFunctions, arranged, List.append_assoc,
    List.getElem?_append_right (Nat.le_add_right _ _), Nat.add_sub_cancel_left,
    List.getElem?_append_left hi, trafficFunctions, List.getElem?_map, h]
  rfl

theorem getElem?_arranged_stop (h : i < (serverLaunches records).length) :
    (arranged scope registry records)[(serverLaunches records).length + records.length + i]? =
      some (.stopJobs [.own scope i], afterTraffics scope records (.ofSeconds 5)) := by
  have hrunning : (serverFunctions records ++
      trafficFunctions scope registry records records).length =
        (serverLaunches records).length + records.length := by
    rw [List.length_append, length_serverFunctions, length_trafficFunctions]
  rw [← hrunning, arranged, List.getElem?_append_right (Nat.le_add_right _ _),
    Nat.add_sub_cancel_left, stopFunctions, List.getElem?_map, List.getElem?_range h]
  rfl

end Places

section Build

variable {plotEntity : Option String} {s : Scenario}

theorem Built.functions_eq (h : Built scope registry records plotEntity s) :
    s.functions = numbered 0
      (arranged scope registry records ++ figureFunctions scope records plotEntity) := by
  rw [h.scenario, functions_plotted]

theorem Built.trafficId_eq (h : Built scope registry records plotEntity s) {r : TrafficRecord}
    (hr : records[i]? = some r) : trafficId records r.id = (serverLaunches records).length + i := by
  obtain ⟨hi, rfl⟩ := List.getElem?_eq_some_iff.mp hr
  have hplace := List.Nodup.idxOf_getElem h.wellDeclared.ids i (by simpa using hi)
  rw [List.getElem_map] at hplace
  rw [trafficId, hplace]

theorem Built.getElem?_functions (h : Built scope registry records plotEntity s)
    {payload : Payload} {wait : WaitClause}
    (hplace : (arranged scope registry records)[i]? = some (payload, wait)) :
    s.functions[i]? = some ⟨i, payload, wait⟩ := by
  have hi := (List.getElem?_eq_some_iff.mp hplace).1
  rw [h.functions_eq, getElem?_numbered, List.getElem?_append_left hi, hplace, Option.map_some,
    Nat.zero_add]

/-- The scenario of many traffics, place by place. -/
theorem layout_of_build (h : (build scope registry records plotEntity).1 = .ok s) :
    let servers := (serverLaunches records).length
    WellDeclared records ∧
      (∀ (i : Nat) launch, (serverLaunches records)[i]? = some launch →
        s.functions[i]? = some ⟨i, .startJob launch, {}⟩) ∧
      (∀ (i : Nat) r, records[i]? = some r → trafficId records r.id = servers + i ∧ ∃ inner,
        (run (Service.blank (scope.child (servers + i)) registry r) (Service.steps r)).1 =
            .ok inner ∧
          s.functions[servers + i]? = some ⟨servers + i,
            .startScenario inner (Service.bindings r), trafficWait scope records r⟩) ∧
      (∀ i < servers, s.functions[servers + records.length + i]? =
        some ⟨servers + records.length + i, .stopJobs [.own scope i],
          afterTraffics scope records (.ofSeconds 5)⟩) ∧
      (plotEntity = none → s.functions.length = 2 * servers + records.length) := by
  intro servers
  have hbuilt := built_of_build h
  refine ⟨hbuilt.wellDeclared, ?_, ?_, ?_, ?_⟩
  · exact fun i launch hlaunch => hbuilt.getElem?_functions (getElem?_arranged_server hlaunch)
  · intro i r hr
    have hplace := hbuilt.trafficId_eq hr
    refine ⟨hplace, embedded scope registry records r, ?_,
      hbuilt.getElem?_functions (getElem?_arranged_traffic hr)⟩
    rw [← hplace]
    exact hbuilt.inside r (List.mem_of_getElem? hr)
  · exact fun i hi => hbuilt.getElem?_functions (getElem?_arranged_stop hi)
  · rintro rfl
    rw [hbuilt.functions_eq, figureFunctions, List.append_nil, length_numbered, length_arranged]

/-- Traffics out of the order of their ids; the last one names others, and one of them twice. -/
def mixedRecords : List TrafficRecord := [
  ⟨3, "server", "client", 60, [], [], 0, "10.0.0.1", "10.0.0.2", .dash "http/2" 5301⟩,
  ⟨1, "sender", "receiver", 60, [], [], 2, "10.0.0.3", "10.0.0.4", .dataTransfer 5201 "10M" 0 1400⟩,
  ⟨4, "server", "client", 60, [1, 1], [3], 7, "10.0.0.1", "10.0.0.2", .webBrowsing 10 1⟩]

/-- The first two wait for the one server, the last one for the first two, and the stop of the
server for all, by ascending id. -/
theorem mixed_layout : ∃ s, (build (.root 0) (.builtin true) mixedRecords none).1 = .ok s ∧
    s.functions.length = 5 ∧
    s.functions[2]?.map ScenarioFunction.wait =
      some { launched := [.own (.root 0) 0], delay := .ofSeconds 7 } ∧
    s.functions[3]?.map ScenarioFunction.wait =
      some { finished := [.own (.root 0) 1], launched := [.own (.root 0) 2],
             delay := .ofSeconds 7 } ∧
    s.functions[4]?.map ScenarioFunction.wait =
      some { finished := [.own (.root 0) 2, .own (.root 0) 1, .own (.root 0) 3],
             delay := .ofSeconds 5 } := by
  have hrun : (build (.root 0) (.builtin true) mixedRecords none).1.toOption.isSome = true := by
    decide +kernel
  cases hbuild : (build (.root 0) (.builtin true) mixedRecords none).1 with
  | error failure => simp [hbuild, Except.toOption] at hrun
  | ok s =>
      obtain ⟨-, -, htraffics, hstops, hlength⟩ := layout_of_build hbuild
      have hservers : (serverLaunches mixedRecords).length = 1 := by decide +kernel
      rw [hservers] at htraffics hstops hlength
      obtain ⟨-, inner, -, hsecond⟩ := htraffics 1 _ rfl
      obtain ⟨-, inner, -, hthird⟩ := htraffics 2 _ rfl
      have hsorted : (mixedRecords.map TrafficRecord.id).mergeSort = [1, 3, 4] := by
        simp [mixedRecords, List.mergeSort, List.MergeSort.Internal.splitInTwo]
      refine ⟨s, rfl, hlength rfl, ?_, ?_, ?_⟩
      · refine (congrArg (Option.map ScenarioFunction.wait) hsecond).trans (congrArg some ?_)
        dsimp only
        decide +kernel
      · refine (congrArg (Option.map ScenarioFunction.wait) hthird).trans (congrArg some ?_)
        dsimp only
        decide +kernel
      · refine (congrArg (Option.map ScenarioFunction.wait) (hstops 0 Nat.one_pos)).trans
          (congrArg some ?_)
        dsimp only
        rw [afterTraffics, hsorted]
        decide +kernel

end Build

end Orchestration.TrafficMix
