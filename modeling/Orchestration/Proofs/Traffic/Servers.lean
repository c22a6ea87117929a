import Orchestration.Proofs.Scenario.Series
import Orchestration.Traffic.Mix

/-!
The servers that traffics need. They are started in two rounds, and the second one passes over the
entities that the first one served: a video server serves pages too. Whatever the order of the
traffics, an entity gets one server, of the kind that all its traffics can use.
-/

namespace Orchestration

namespace Scenario

variable (s : Scenario) (launches : List JobLaunch)

/-- The scenario with launches added in a row, none of which waits for anything. -/
def withLaunches : Scenario := s.withFunctions (launches.map fun launch => (.startJob launch, {}))

/-- The handles of launches that are added in a row, each with the entity that it is for. -/
def launchHandles : List (String × Handle) :=
  (launches.zipIdx s.ids.next).map fun launch =>
    (launch.1.entity, ⟨s.scope, launch.2, .startJob⟩)

variable {s launches}

theorem withLaunches_concat (launch : JobLaunch) :
    s.withLaunches (launches ++ [launch]) =
      (s.withLaunches launches).withFunction (.startJob launch) {} := by
  rw [withLaunches, List.map_append]
  exact withFunctions_concat _ _ _ _

theorem launchHandles_concat (launch : JobLaunch) :
    s.launchHandles (launches ++ [launch]) = s.launchHandles launches ++
      [(launch.entity, ⟨s.scope, (s.withLaunches launches).ids.next, .startJob⟩)] := by
  rw [withLaunches, next_withFunctions, List.length_map, launchHandles, List.zipIdx_append,
    List.map_append]
  rfl

theorem entities_launchHandles :
    (s.launchHandles launches).map Prod.fst = launches.map JobLaunch.entity := by
  rw [launchHandles, List.map_map]
  conv_rhs => rw [← List.zipIdx_map_fst s.ids.next launches, List.map_map]
  rfl

theorem handles_launchHandles :
    (s.launchHandles launches).map Prod.snd =
      (List.range' s.ids.next launches.length).map fun id => ⟨s.scope, id, .startJob⟩ := by
  rw [launchHandles, List.map_map, ← List.zipIdx_map_snd s.ids.next launches, List.map_map]
  rfl

end Scenario

namespace TrafficMix

open Scenario Build

section Plan

/-- The entities, each once, on which some traffics start that are not taken. -/
def missing (taken : List String) (records : List TrafficRecord) : List String :=
  ((records.map TrafficRecord.source).filter fun entity => entity ∉ taken).eraseDups

/-- The entities that get a video server. -/
def videoEntities (records : List TrafficRecord) : List String :=
  missing [] (ofKind .dash records)

/-- The entities that get a web server: those that serve pages, but no videos. -/
def webEntities (records : List TrafficRecord) : List String :=
  missing (videoEntities records) (ofKind .webBrowsing records)

/-- The servers: video servers first, each group in the order in which the traffics name it. -/
def serverLaunches (records : List TrafficRecord) : List JobLaunch :=
  (videoEntities records).map (fun entity => { job := "dash player&server", entity := entity }) ++
    (webEntities records).map fun entity => { job := "apache2", entity := entity }

end Plan

variable {s : Scenario} {records : List TrafficRecord} {refused : Failure → Prop}

theorem exists_of_mem_serverLaunches {launch : JobLaunch} (h : launch ∈ serverLaunches records) :
    ∃ entity, launch = { job := "dash player&server", entity := entity } ∨
      launch = { job := "apache2", entity := entity } := by
  rcases List.mem_append.mp h with h | h
  · obtain ⟨entity, -, rfl⟩ := List.mem_map.mp h
    exact ⟨entity, .inl rfl⟩
  · obtain ⟨entity, -, rfl⟩ := List.mem_map.mp h
    exact ⟨entity, .inr rfl⟩

section Missing

variable {taken : List String} {entity : String}

theorem mem_missing :
    entity ∈ missing taken records ↔ entity ∉ taken ∧ ∃ r ∈ records, r.source = entity := by
  rw [missing, List.mem_eraseDups, List.mem_filter, List.mem_map, decide_eq_true_eq, and_comm]

theorem missing_concat (taken : List String) (records : List TrafficRecord) (r : TrafficRecord) :
    missing taken (records ++ [r]) =
      if r.source ∈ taken ∨ r.source ∈ missing taken records then missing taken records
      else missing taken records ++ [r.source] := by
  by_cases htaken : r.source ∈ taken
  · simp [missing, htaken]
  · rw [missing, List.map_append, List.filter_append]
    have hlast : ([r].map TrafficRecord.source).filter (fun entity => entity ∉ taken) =
        [r.source] := by simp [htaken]
    rw [hlast]
    by_cases hmem : r.source ∈ missing taken records
    · rw [eraseDups_concat_of_mem (List.mem_eraseDups.mp hmem), if_pos (.inr hmem), missing]
    · rw [eraseDups_concat_of_notMem fun h => hmem (List.mem_eraseDups.mpr h), if_neg, missing]
      exact not_or_intro htaken hmem

end Missing

section Rounds

/-- Without values, and with nothing to wait for, a launch is refused only by the registry. -/
theorem ends_bare {job entity : String} (hrefused : ∀ failure,
      s.registry.check { job := job, entity := entity } = .error failure → refused failure) :
    (Launch.one { job := job, entity := entity } {}).Ends s refused fun handles t =>
      handles = [⟨s.scope, s.ids.next, .startJob⟩] ∧
        t = s.withFunction (.startJob { job := job, entity := entity }) {} ∧
        (s.Everywhere Intact → t.Everywhere Intact) := by
  have hwait : ∀ r ∈ ({} : WaitClause).references, s.Resolves r := by simp
  have hvalues : ∀ v ∈ ({ job := job, entity := entity } : JobLaunch).values, s.HoldsAll v := by
    simp [JobLaunch.values]
  refine (ends_admitted hwait fun failure herror =>
    hrefused failure (check_of_checkPayload hvalues herror)).bind ?_
  rintro _ _ ⟨hadmits, rfl, rfl⟩
  refine ends_pure ⟨rfl, rfl, fun hs => hs.withFunction hwait hadmits ?_⟩
  rintro inner bindings ⟨⟩

/-- One round: it goes on from launches in a row, and adds one for each entity that is missing. -/
theorem ends_round (job : String) (launches : List JobLaunch) (records : List TrafficRecord)
    (hrefused : ∀ entity ∈ missing (launches.map JobLaunch.entity) records, ∀ failure,
      s.registry.check { job := job, entity := entity } = .error failure → refused failure) :
    (startMissing (fun entity => Launch.one { job := job, entity := entity } {})
      (s.launchHandles launches) records).Ends (s.withLaunches launches) refused fun named t =>
        let all := launches ++ (missing (launches.map JobLaunch.entity) records).map fun entity =>
          { job := job, entity := entity }
        named = s.launchHandles all ∧ t = s.withLaunches all ∧
          ((s.withLaunches launches).Everywhere Intact → t.Everywhere Intact) := by
  let all := fun before => launches ++
    (missing (launches.map JobLaunch.entity) before).map fun entity =>
      ({ job := job, entity := entity } : JobLaunch)
  unfold startMissing
  refine ends_foldlM (fun before named t => named = s.launchHandles (all before) ∧
    t = s.withLaunches (all before) ∧
      ((s.withLaunches launches).Everywhere Intact → t.Everywhere Intact)) ?_ ?_
  · rintro before r after named t hsplit ⟨rfl, rfl, hintact⟩
    have hentities : (s.launchHandles (all before)).map Prod.fst =
        launches.map JobLaunch.entity ++ missing (launches.map JobLaunch.entity) before := by
      rw [entities_launchHandles]
      simp [all, Function.comp_def]
    have hany : ((s.launchHandles (all before)).any fun server => server.1 = r.source) = true ↔
        r.source ∈ launches.map JobLaunch.entity ∨
          r.source ∈ missing (launches.map JobLaunch.entity) before := by
      rw [← List.mem_append, ← hentities]
      simp
    split
    next hserved =>
      have hsame : all (before ++ [r]) = all before := by
        simp only [all, missing_concat, if_pos (hany.mp hserved)]
      rw [hsame]
      exact ends_pure ⟨rfl, rfl, hintact⟩
    next hserved =>
      have hnew := not_or.mp fun h => hserved (hany.mpr h)
      have hmore : all (before ++ [r]) = all before ++ [{ job := job, entity := r.source }] := by
        simp only [all, missing_concat, if_neg (not_or_intro hnew.1 hnew.2), List.map_append,
          List.map_cons, List.map_nil, List.append_assoc]
      have hmissing : r.source ∈ missing (launches.map JobLaunch.entity) records :=
        mem_missing.mpr ⟨hnew.1, r, by simp [hsplit], rfl⟩
      rw [hmore]
      refine (ends_bare ?_).bind ?_
      · rw [withLaunches, registry_withFunctions]
        exact hrefused r.source hmissing
      · rintro _ _ ⟨rfl, rfl, hkept⟩
        refine ends_pure ⟨?_, (withLaunches_concat _).symm, fun hs => hkept (hintact hs)⟩
        rw [launchHandles_concat, withLaunches, scope_withFunctions]
        rfl
  · have hnone : all [] = launches := List.append_nil _
    rw [hnone]
    exact ⟨rfl, rfl, id⟩

/-- Both rounds, in any scenario: the servers are added in a row, unless the registry refuses one of
them. -/
theorem ends_rounds (hrefused : ∀ launch ∈ serverLaunches records, ∀ failure,
      s.registry.check launch = .error failure → refused failure) :
    (startServers records).Ends s refused fun named t =>
      named = s.launchHandles (serverLaunches records) ∧
        t = s.withLaunches (serverLaunches records) ∧
        (s.Everywhere Intact → t.Everywhere Intact) := by
  refine (ends_round (s := s) "dash player&server" [] (ofKind .dash records) ?_).bind ?_
  · intro entity hentity
    exact hrefused _ (List.mem_append_left _ (List.mem_map_of_mem hentity))
  rintro _ _ ⟨rfl, rfl, hfirst⟩
  have hvideo : (([] ++ (missing ([].map JobLaunch.entity) (ofKind .dash records)).map fun entity =>
      ({ job := "dash player&server", entity := entity } : JobLaunch)).map JobLaunch.entity) =
        videoEntities records := by
    simp [videoEntities, Function.comp_def]
  refine (ends_round (s := s) "apache2" _ (ofKind .webBrowsing records) ?_).imp ?_
  · intro entity hentity
    rw [hvideo] at hentity
    exact hrefused _ (List.mem_append_right _ (List.mem_map_of_mem hentity))
  · rintro _ _ ⟨rfl, rfl, hsecond⟩
    rw [hvideo] at hsecond ⊢
    exact ⟨rfl, rfl, fun hs => hsecond (hfirst hs)⟩

end Rounds

section Order

/-- The entity is the source of a video. -/
def SendsVideo (records : List TrafficRecord) (entity : String) : Prop :=
  ∃ r ∈ records, r.source = entity ∧ r.kind = .dash

instance (records : List TrafficRecord) (entity : String) : Decidable (SendsVideo records entity) :=
  inferInstanceAs (Decidable (∃ r ∈ records, r.source = entity ∧ r.kind = .dash))

/-- The entity is the source of a traffic that cannot do without a server. -/
def NeedsServer (records : List TrafficRecord) (entity : String) : Prop :=
  ∃ r ∈ records, r.source = entity ∧ (r.kind = .dash ∨ r.kind = .webBrowsing)

/-- The server that an entity needs. -/
def serverFor (records : List TrafficRecord) (entity : String) : JobLaunch where
  job := if SendsVideo records entity then "dash player&server" else "apache2"
  entity := entity

/-- Where the list names the entity first as the source of a traffic of the kind. -/
def firstPlace (records : List TrafficRecord) (kind : TrafficKind) (entity : String) : Nat :=
  records.findIdx fun r => r.kind = kind ∧ r.source = entity

/-- The order of the servers. What counts in a group is the first traffic of the group's own kind:
a page does not move a video server forward. -/
inductive ServedBefore (records : List TrafficRecord) (a b : String) : Prop
  | videoFirst (ha : SendsVideo records a) (hb : ¬ SendsVideo records b)
  | video (ha : SendsVideo records a) (hb : SendsVideo records b)
      (hfirst : firstPlace records .dash a < firstPlace records .dash b)
  | web (ha : ¬ SendsVideo records a) (hb : ¬ SendsVideo records b)
      (hfirst : firstPlace records .webBrowsing a < firstPlace records .webBrowsing b)

theorem ServedBefore.ne {a b : String} (h : ServedBefore records a b) : a ≠ b := by
  rintro rfl
  cases h with
  | videoFirst ha hb => exact hb ha
  | video ha hb hfirst => exact lt_irrefl _ hfirst
  | web ha hb hfirst => exact lt_irrefl _ hfirst

variable {kind : TrafficKind} {taken : List String} {a b entity : String}

theorem mem_missing_ofKind :
    entity ∈ missing taken (ofKind kind records) ↔
      entity ∉ taken ∧ ∃ r ∈ records, r.kind = kind ∧ r.source = entity := by
  simp only [mem_missing, ofKind, List.mem_filter, decide_eq_true_eq, and_assoc]

theorem mem_videoEntities : entity ∈ videoEntities records ↔ SendsVideo records entity := by
  rw [videoEntities, mem_missing_ofKind, SendsVideo]
  grind

theorem mem_webEntities :
    entity ∈ webEntities records ↔ NeedsServer records entity ∧ ¬ SendsVideo records entity := by
  rw [webEntities, mem_missing_ofKind, mem_videoEntities, SendsVideo, NeedsServer]
  grind

/-- The entities with servers, in the order of the servers. -/
def servedEntities (records : List TrafficRecord) : List String :=
  videoEntities records ++ webEntities records

theorem mem_servedEntities : entity ∈ servedEntities records ↔ NeedsServer records entity := by
  rw [servedEntities, List.mem_append, mem_videoEntities, mem_webEntities, SendsVideo, NeedsServer]
  grind

theorem serverLaunches_eq :
    serverLaunches records = (servedEntities records).map (serverFor records) := by
  rw [serverLaunches, servedEntities, List.map_append]
  congr 1
  · refine List.map_congr_left fun entity hentity => ?_
    rw [serverFor, if_pos (mem_videoEntities.mp hentity)]
  · refine List.map_congr_left fun entity hentity => ?_
    rw [serverFor, if_neg (mem_webEntities.mp hentity).2]

end Order

section Started

end Started

end TrafficMix

end Orchestration
