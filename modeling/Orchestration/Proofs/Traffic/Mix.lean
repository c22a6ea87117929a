import Orchestration.Proofs.Traffic.Offences
import Orchestration.Proofs.Traffic.Servers
import Orchestration.Proofs.Traffic.Service

/-!
The scenario of many traffics, as far as it runs them: first the servers, then the traffics in the
order of the list, then the stops of the servers. A traffic is known by its id, by its place in the
list, by the function that starts it, and by the rank of its id; all of these can differ. The steps
end early only where a traffic offends, or where the registry refuses a job.
-/

namespace Orchestration

theorem Duration.add?_ofSeconds (m n : Nat) :
    (Duration.ofSeconds m).add? (.ofSeconds n) =
      if m + n ≤ Text.max64 then some (.ofSeconds (m + n)) else none := by
  have hsum : (ofSeconds m).nanoseconds + (ofSeconds n).nanoseconds =
      (ofSeconds (m + n)).nanoseconds :=
    (Nat.add_mul m n second).symm
  have hwhole : (ofSeconds (m + n)).wholeSeconds = m + n := Nat.mul_div_cancel _ (by decide)
  simp only [add?, hsum, hwhole]

namespace TrafficMix

open Scenario Build

section Plan

/-- The function that starts the traffic of an id. -/
def trafficId (records : List TrafficRecord) (id : Nat) : FunctionId :=
  (serverLaunches records).length + (records.map TrafficRecord.id).idxOf id

variable (scope : Scope) (registry : JobRegistry) (records : List TrafficRecord)

def trafficRef (id : Nat) : Reference := .own scope (trafficId records id)

/-- The clause of a traffic: it waits for the traffics that it names, in the order in which it names
them. If it names none, it waits for the servers, and for some time until they are up. -/
def trafficWait (r : TrafficRecord) : WaitClause :=
  if r.hasDependencies ∨ serverLaunches records = [] then
    { finished := (r.waitFinished.map (trafficRef scope records)).eraseDups
      launched := (r.waitLaunched.map (trafficRef scope records)).eraseDups
      delay := .ofSeconds r.delay }
  else
    { launched := (List.range (serverLaunches records).length).map (.own scope)
      delay := .ofSeconds (r.delay + 5) }

/-- The part of the clause that names no traffic. -/
def ownWait (r : TrafficRecord) : WaitClause :=
  if r.hasDependencies ∨ serverLaunches records = [] then { delay := .ofSeconds r.delay }
  else
    { launched := (List.range (serverLaunches records).length).map (.own scope)
      delay := .ofSeconds (r.delay + 5) }

/-- The clause of what comes after all traffics, which are named by ascending id. -/
def afterTraffics (delay : Duration) : WaitClause where
  finished := (records.map TrafficRecord.id).mergeSort.map (trafficRef scope records)
  delay := delay

/-- The scenario that a traffic starts. -/
def embedded (r : TrafficRecord) : Scenario :=
  Service.filled (scope.child (trafficId records r.id)) registry r

def serverFunctions : List (Payload × WaitClause) :=
  (serverLaunches records).map fun launch => (.startJob launch, {})

def trafficFunctions (earlier : List TrafficRecord) : List (Payload × WaitClause) :=
  earlier.map fun r =>
    (.startScenario (embedded scope registry records r) (Service.bindings r),
      trafficWait scope records r)

def stopFunctions : List (Payload × WaitClause) :=
  (List.range (serverLaunches records).length).map fun i =>
    (.stopJobs [.own scope i], afterTraffics scope records (.ofSeconds 5))

/-- All functions but those that draw figures. -/
def arranged : List (Payload × WaitClause) :=
  serverFunctions records ++ trafficFunctions scope registry records records ++
    stopFunctions scope records

end Plan

variable {scope : Scope} {registry : JobRegistry} {records earlier : List TrafficRecord}
  {r : TrafficRecord}

section Row

variable {added : List (Payload × WaitClause)}

theorem functions_row :
    ((blank scope registry).withFunctions added).functions = numbered 0 added := by
  rw [functions_withFunctions]
  exact List.nil_append _

/-- What is added in a row is known by its place. -/
theorem namesOwn_row (h : ((blank scope registry).withFunctions added).Coherent) {i : Nat}
    {payload : Payload} {wait : WaitClause} (hadded : added[i]? = some (payload, wait)) :
    ((blank scope registry).withFunctions added).NamesOwn payload.kind (.own scope i) := by
  have hmem : ⟨i, payload, wait⟩ ∈ ((blank scope registry).withFunctions added).functions := by
    rw [functions_row]
    apply List.mem_of_getElem?
    rw [getElem?_numbered, hadded, Option.map_some, Nat.zero_add]
  have hnames := h.namesOwn hmem
  rwa [scope_withFunctions] at hnames

theorem resolves_row (h : ((blank scope registry).withFunctions added).Coherent) {i : Nat}
    (hi : i < added.length) :
    ((blank scope registry).withFunctions added).Resolves (.own scope i) :=
  (namesOwn_row h (List.getElem?_eq_getElem hi)).resolves

theorem trafficId_lt {later : List TrafficRecord} (hsplit : records = earlier ++ later) {id : Nat}
    (hid : id ∈ earlier.map TrafficRecord.id) :
    trafficId records id < (serverLaunches records).length + earlier.length := by
  have hplace : (records.map TrafficRecord.id).idxOf id < earlier.length := by
    rw [hsplit, List.map_append, List.idxOf_append_of_mem hid, ← List.length_map TrafficRecord.id]
    exact List.idxOf_lt_length_of_mem hid
  exact Nat.add_lt_add_left hplace _

theorem mem_references_trafficWait {reference : Reference} :
    reference ∈ (trafficWait scope records r).references ↔
      if r.hasDependencies ∨ serverLaunches records = [] then
        ∃ id ∈ r.waits, trafficRef scope records id = reference
      else ∃ i < (serverLaunches records).length, .own scope i = reference := by
  rw [trafficWait]
  split
  next =>
    simp [WaitClause.references, TrafficRecord.waits, or_and_right, exists_or, or_comm]
  next => simp [WaitClause.references]

theorem length_serverFunctions :
    (serverFunctions records).length = (serverLaunches records).length :=
  List.length_map _

theorem length_trafficFunctions :
    (trafficFunctions scope registry records earlier).length = earlier.length :=
  List.length_map _

theorem length_arranged :
    (arranged scope registry records).length =
      2 * (serverLaunches records).length + records.length := by
  rw [arranged, List.length_append, List.length_append, length_serverFunctions,
    length_trafficFunctions, stopFunctions, List.length_map, List.length_range]
  omega

theorem getElem?_server {i : Nat} {launch : JobLaunch}
    (h : (serverLaunches records)[i]? = some launch) (rest : List (Payload × WaitClause)) :
    (serverFunctions records ++ rest)[i]? = some (.startJob launch, {}) := by
  have hi : i < (serverFunctions records).length := by
    rw [length_serverFunctions]
    exact (List.getElem?_eq_some_iff.mp h).1
  rw [List.getElem?_append_left hi, serverFunctions, List.getElem?_map, h, Option.map_some]

/-- Once the traffics are there, a clause can wait for all of them. -/
theorem resolves_afterTraffics (h : ((blank scope registry).withFunctions added).Coherent)
    (hadded : (serverLaunches records).length + records.length ≤ added.length)
    (delay : Duration) : ∀ reference ∈ (afterTraffics scope records delay).references,
      ((blank scope registry).withFunctions added).Resolves reference := by
  have hreferences : (afterTraffics scope records delay).references =
      (records.map TrafficRecord.id).mergeSort.map (trafficRef scope records) :=
    List.append_nil _
  rw [hreferences]
  refine List.forall_mem_map.mpr fun id hid => ?_
  have hlt := trafficId_lt (List.append_nil records).symm (List.mem_mergeSort.mp hid)
  exact resolves_row h (hlt.trans_le hadded)

end Row

section Start

variable {servers : List Handle}

theorem add?_serverWarmup (delay : Nat) :
    (Duration.ofSeconds delay).add? serverWarmup =
      if Text.max64 - 5 < delay then none else some (.ofSeconds (delay + 5)) := by
  rw [serverWarmup, Duration.add?_ofSeconds]
  by_cases hdelay : Text.max64 - 5 < delay
  · rw [if_pos hdelay, if_neg (by omega)]
  · have hfits : delay + 5 ≤ Text.max64 :=
      Nat.add_le_of_le_sub (by decide) (Nat.le_of_not_lt hdelay)
    rw [if_neg hdelay, if_pos hfits]

theorem serverLaunches_eq_nil_iff :
    serverLaunches records = [] ↔
      ¬ ∃ other ∈ records, other.kind = .dash ∨ other.kind = .webBrowsing := by
  rw [serverLaunches_eq, List.map_eq_nil_iff, List.eq_nil_iff_forall_not_mem]
  simp only [mem_servedEntities]
  constructor
  · rintro h ⟨r, hr, hkind⟩
    exact h r.source ⟨r, hr, rfl, hkind⟩
  · rintro h entity ⟨r, hr, -, hkind⟩
    exact h ⟨r, hr, hkind⟩

theorem bundled_of_mem_serverLaunches {launch : JobLaunch}
    (h : launch ∈ serverLaunches records) : Launch.Bundled launch := by
  obtain ⟨entity, rfl | rfl⟩ := exists_of_mem_serverLaunches h
  · exact .dashServer entity
  · exact .apache2 entity

theorem startWait_eq (r : TrafficRecord) (hservers : servers =
      (List.range (serverLaunches records).length).map fun i => ⟨scope, i, .startJob⟩) :
    startWait servers r =
      if Overflows records r then .error .durationOverflow else .ok (ownWait scope records r) := by
  have hempty : servers.isEmpty = true ↔ serverLaunches records = [] := by
    rw [List.isEmpty_iff, hservers, List.map_eq_nil_iff, List.range_eq_nil,
      List.length_eq_zero_iff]
  by_cases hwaits : r.hasDependencies = true ∨ serverLaunches records = []
  · have hfits : ¬ Overflows records r := by
      rintro ⟨hneeded, halone, -⟩
      rcases hwaits with hwaits | hnone
      · cases halone.symm.trans hwaits
      · exact serverLaunches_eq_nil_iff.mp hnone hneeded
    rw [if_neg hfits, ownWait, if_pos hwaits, startWait, if_pos (by simpa [hempty] using hwaits)]
    rfl
  · have hneeded := not_not.mp fun h => (not_or.mp hwaits).2 (serverLaunches_eq_nil_iff.mpr h)
    have halone : r.hasDependencies = false := by simpa using (not_or.mp hwaits).1
    rw [startWait, if_neg (by simpa [hempty] using hwaits), add?_serverWarmup]
    by_cases hdelay : Text.max64 - 5 < r.delay
    · rw [if_pos hdelay, if_pos ⟨hneeded, halone, hdelay⟩]
      rfl
    · have hdistinct : ((List.range (serverLaunches records).length).map
          (Reference.own scope)).Nodup :=
        List.nodup_range.map fun i j hij => congrArg Reference.id hij
      have hlaunched : (servers.map Handle.reference).foldl WaitClause.addOnce [] =
          (List.range (serverLaunches records).length).map (.own scope) := by
        rw [WaitClause.foldl_addOnce_nil, hservers, List.map_map]
        exact eraseDups_of_nodup hdistinct
      rw [if_neg hdelay, if_neg fun h => hdelay h.2.2, ownWait, if_neg hwaits]
      exact congrArg (fun launched => Except.ok (WaitClause.mk [] launched _)) hlaunched

end Start

section Traffics

/-- The scenario as far as it is after some traffics. -/
def carrying (scope : Scope) (registry : JobRegistry) (records earlier : List TrafficRecord) :
    Scenario :=
  (blank scope registry).withFunctions
    (serverFunctions records ++ trafficFunctions scope registry records earlier)

/-- Where the building stands after some traffics: every one of them is in its place, and known to
the composer by its id. -/
structure Composed (scope : Scope) (registry : JobRegistry) (records earlier : List TrafficRecord)
    (c : Composer) (t : Scenario) : Prop where
  scenario : t = carrying scope registry records earlier
  intact : t.Everywhere Intact
  declared : c.declared = Entries.ofList (earlier.map fun r =>
    (r.id, ⟨scope, trafficId records r.id, .startScenario⟩))
  wellDeclared : WellDeclared earlier
  built : ∀ r ∈ earlier,
    (run (Service.blank (scope.child (trafficId records r.id)) registry r) (Service.steps r)).1 =
      .ok (embedded scope registry records r)

variable {c : Composer} {t : Scenario}

theorem carrying_nil : carrying scope registry records [] =
    (blank scope registry).withLaunches (serverLaunches records) :=
  congrArg (blank scope registry).withFunctions (List.append_nil _)

theorem carrying_concat (r : TrafficRecord) :
    carrying scope registry records (earlier ++ [r]) =
      (carrying scope registry records earlier).withFunction
        (.startScenario (embedded scope registry records r) (Service.bindings r))
        (trafficWait scope records r) := by
  rw [carrying, trafficFunctions, List.map_append, ← List.append_assoc]
  exact withFunctions_concat _ _ _ _

theorem Composed.scope_eq (h : Composed scope registry records earlier c t) : t.scope = scope := by
  rw [h.scenario, carrying, scope_withFunctions]
  rfl

theorem Composed.next_eq (h : Composed scope registry records earlier c t) :
    t.ids.next = (serverLaunches records).length + earlier.length := by
  rw [h.scenario, carrying, next_withFunctions, List.length_append, length_serverFunctions,
    length_trafficFunctions]
  exact Nat.zero_add _

/-- The place of a traffic in the list, if its id is new there. -/
theorem trafficId_of_split {later : List TrafficRecord} (hsplit : records = earlier ++ r :: later)
    (hnew : r.id ∉ earlier.map TrafficRecord.id) :
    trafficId records r.id = (serverLaunches records).length + earlier.length := by
  have hplace : (records.map TrafficRecord.id).idxOf r.id = earlier.length := by
    rw [hsplit, List.map_append, List.idxOf_append_of_notMem hnew, List.map_cons,
      List.idxOf_cons_self, List.length_map, Nat.add_zero]
  rw [trafficId, hplace]

theorem keys_map_id {α : Type} (earlier : List TrafficRecord) (f : TrafficRecord → α) :
    Entries.keys (earlier.map fun r => (r.id, f r)) = earlier.map TrafficRecord.id := by
  simp [Entries.keys, Function.comp_def]

theorem Composed.handle?_eq (h : Composed scope registry records earlier c t) {id : Nat}
    (hid : id ∈ earlier.map TrafficRecord.id) :
    c.handle? id = some ⟨scope, trafficId records id, .startScenario⟩ := by
  obtain ⟨r, hr, rfl⟩ := List.mem_map.mp hid
  rw [Composer.handle?, h.declared]
  refine Entries.find?_ofList_of_nodup ?_ (List.mem_map.mpr ⟨r, hr, rfl⟩)
  rw [keys_map_id]
  exact h.wellDeclared.ids

theorem Composed.isSome_handle? (h : Composed scope registry records earlier c t) {id : Nat} :
    (c.handle? id).isSome = true ↔ id ∈ earlier.map TrafficRecord.id := by
  rw [Composer.handle?, h.declared, Entries.find?_isSome_iff, Entries.mem_keys_ofList,
    keys_map_id]

/-- The functions of ids that are declared, in the order in which the ids are given. -/
theorem Composed.references_eq (h : Composed scope registry records earlier c t) {ids : List Nat}
    (hids : ∀ id ∈ ids, id ∈ earlier.map TrafficRecord.id) :
    (ids.filterMap c.handle?).map Handle.reference = ids.map (trafficRef scope records) := by
  rw [List.map_filterMap, ← List.filterMap_eq_map]
  refine List.filterMap_congr fun id hid => ?_
  rw [h.handle?_eq (hids id hid)]
  rfl

/-- The clause of a traffic is put together from its own part and from what it names. -/
theorem Composed.extendWait_eq (h : Composed scope registry records earlier c t)
    (hwaits : ∀ id ∈ r.waits, id ∈ earlier.map TrafficRecord.id) :
    c.extendWait (ownWait scope records r) r.waitLaunched r.waitFinished =
      trafficWait scope records r := by
  rw [TrafficRecord.waits, List.forall_mem_append] at hwaits
  rw [Composer.extendWait, h.references_eq hwaits.1, h.references_eq hwaits.2, ownWait, trafficWait]
  split
  next =>
    rw [← WaitClause.foldl_addOnce_nil, ← WaitClause.foldl_addOnce_nil]
    rfl
  next hnames =>
    have hnone : r.waits = [] := by
      rw [TrafficRecord.waits_eq_nil_iff]
      simpa using (not_or.mp hnames).1
    obtain ⟨hlaunched, hfinished⟩ := List.append_eq_nil_iff.mp hnone
    rw [hlaunched, hfinished]
    rfl

/-- A traffic waits for the servers, or for traffics that are there before it. -/
theorem Composed.resolves_trafficWait (h : Composed scope registry records earlier c t)
    {later : List TrafficRecord} (hsplit : records = earlier ++ later)
    (hwaits : ∀ id ∈ r.waits, id ∈ earlier.map TrafficRecord.id) :
    ∀ reference ∈ (trafficWait scope records r).references, t.Resolves reference := by
  have hintact := h.intact.here.toCoherent
  rw [h.scenario, carrying] at hintact ⊢
  intro reference hreference
  rw [mem_references_trafficWait] at hreference
  split at hreference
  next =>
    obtain ⟨id, hid, rfl⟩ := hreference
    apply resolves_row hintact
    rw [List.length_append, length_serverFunctions, length_trafficFunctions]
    exact trafficId_lt hsplit (hwaits id hid)
  next =>
    obtain ⟨i, hi, rfl⟩ := hreference
    apply resolves_row hintact
    rw [List.length_append, length_serverFunctions]
    exact Nat.lt_add_right _ hi

/-- The next traffic takes the next place, under its id. -/
theorem Composed.snoc (h : Composed scope registry records earlier c t)
    {later : List TrafficRecord} (hsplit : records = earlier ++ r :: later)
    (hnew : r.id ∉ earlier.map TrafficRecord.id)
    (hwaits : ∀ id ∈ r.waits, id < r.id ∧ id ∈ earlier.map TrafficRecord.id)
    (hbuilt : (run (Service.blank (scope.child (trafficId records r.id)) registry r)
      (Service.steps r)).1 = .ok (embedded scope registry records r))
    (hnext : (t.withFunction (.startScenario (embedded scope registry records r)
      (Service.bindings r)) (trafficWait scope records r)).Everywhere Intact) :
    Composed scope registry records (earlier ++ [r])
      ⟨Entries.insert r.id ⟨t.scope, t.ids.next, .startScenario⟩ c.declared⟩
      (t.withFunction (.startScenario (embedded scope registry records r) (Service.bindings r))
        (trafficWait scope records r)) where
  scenario := by rw [carrying_concat, ← h.scenario]
  intact := hnext
  declared := by
    have hlast := Entries.ofList_concat
      (earlier.map fun r => (r.id, (⟨scope, trafficId records r.id, .startScenario⟩ : Handle)))
      r.id ⟨scope, trafficId records r.id, .startScenario⟩
    rw [h.declared, h.scope_eq, h.next_eq, ← trafficId_of_split hsplit hnew, List.map_append]
    exact hlast.symm
  wellDeclared := h.wellDeclared.snoc hnew hwaits
  built := List.forall_mem_append.mpr ⟨h.built, List.forall_mem_singleton.mpr hbuilt⟩

/-- The traffics by ascending id, whatever the order in which they were declared. -/
theorem Composed.handles_eq (h : Composed scope registry records earlier c t) :
    c.handles = (earlier.map TrafficRecord.id).mergeSort.map fun id =>
      ⟨scope, trafficId records id, .startScenario⟩ := by
  have hkeys : Entries.keys c.declared = (earlier.map TrafficRecord.id).mergeSort := by
    have hpairs := keys_map_id earlier fun r =>
      (⟨scope, trafficId records r.id, .startScenario⟩ : Handle)
    have hascends : (Entries.keys c.declared).Pairwise (· ≤ ·) := by
      rw [h.declared]
      exact (Entries.pairwise_keys_ofList _).imp Nat.le_of_lt
    have hsorted : ((earlier.map TrafficRecord.id).mergeSort).Pairwise (· ≤ ·) := by
      have htrans : ∀ a b c : Nat, decide (a ≤ b) = true → decide (b ≤ c) = true →
          decide (a ≤ c) = true := by simpa using fun a b c => Nat.le_trans
      have htotal : ∀ a b : Nat, (decide (a ≤ b) || decide (b ≤ a)) = true := by
        simpa using Nat.le_total
      simpa using List.pairwise_mergeSort htrans htotal (earlier.map TrafficRecord.id)
    refine List.Perm.eq_of_pairwise (fun a b _ _ => Nat.le_antisymm) hascends hsorted ?_
    refine List.Perm.trans ?_ (List.mergeSort_perm _ _).symm
    rw [h.declared, ← hpairs]
    refine (Entries.ofList_perm ?_).map Prod.fst
    rw [hpairs]
    exact h.wellDeclared.ids
  have hvalues : ∀ entry ∈ c.declared,
      entry.2 = ⟨scope, trafficId records entry.1, .startScenario⟩ := by
    intro entry hentry
    rw [h.declared] at hentry
    obtain ⟨r, -, rfl⟩ := List.mem_map.mp (Entries.mem_of_mem_ofList hentry)
    rfl
  rw [← hkeys, Entries.keys, List.map_map, Composer.handles]
  exact List.map_congr_left hvalues

theorem Composed.afterAllFinished_eq (h : Composed scope registry records records c t)
    (delay : Duration) :
    (({} : WaitClause).afterAllFinished (c.handles.map Handle.reference)).withDelay delay =
      afterTraffics scope records delay := by
  have hreferences : c.handles.map Handle.reference =
      (records.map TrafficRecord.id).mergeSort.map (trafficRef scope records) := by
    rw [h.handles_eq, List.map_map]
    rfl
  -- The ids differ, and so do their places in the list.
  have hdistinct :
      ((records.map TrafficRecord.id).mergeSort.map (trafficRef scope records)).Nodup := by
    refine List.Nodup.map_on ?_ ((List.mergeSort_perm _ _).nodup_iff.mpr h.wellDeclared.ids)
    intro a ha b hb hab
    have hids : trafficId records a = trafficId records b := congrArg Reference.id hab
    rw [trafficId, trafficId, Nat.add_left_cancel_iff] at hids
    exact (List.idxOf_inj (List.mem_mergeSort.mp ha)).mp hids
  rw [hreferences, WaitClause.afterAllFinished, WaitClause.foldl_addOnce_nil,
    eraseDups_of_nodup hdistinct]
  rfl

end Traffics

section Walk

variable {refused : Failure → Prop}
  (hrefused : ∀ launch, Launch.Bundled launch → ∀ failure,
    registry.check launch = .error failure → refused failure)
  {servers : List Handle} (hservers : servers =
    (List.range (serverLaunches records).length).map fun i => ⟨scope, i, .startJob⟩)
  {c : Composer} {t : Scenario}

section Traffics

include hrefused hservers

theorem ends_startTraffic {later : List TrafficRecord}
    (h : Composed scope registry records earlier c t) (hsplit : records = earlier ++ r :: later)
    (hoffence : ∀ failure, offence? records earlier r = some failure → refused failure) :
    (startTraffic registry servers c r).Ends t refused fun more u =>
      offence? records earlier r = none ∧
        Composed scope registry records (earlier ++ [r]) more u := by
  unfold startTraffic
  rw [startWait_eq r hservers]
  refine Ends.bind (P := fun wait u => ¬ Overflows records r ∧ wait = ownWait scope records r ∧
    u = t) (ends_ofExcept ?_ ?_) ?_
  · intro wait hwait
    split at hwait
    next => cases hwait
    next hfits => exact ⟨hfits, (Except.ok.inj hwait).symm, rfl⟩
  · intro failure hfailure
    split at hfailure
    next hoverflow =>
      cases hfailure
      exact hoffence _ (if_pos hoverflow)
    next => cases hfailure
  rintro _ t ⟨hfits, rfl, rfl⟩
  refine Ends.bind (P := fun value u => value = t.scope.child t.ids.next ∧ u = t)
    (ends_nextScope ⟨rfl, rfl⟩) ?_
  rintro _ t ⟨rfl, rfl⟩
  refine (ends_aside (Service.ends_steps hrefused)).bind ?_
  rintro _ t ⟨hinner, ⟨rfl, hintact⟩, rfl⟩
  have herror : ∀ failure, c.check r.id r.waitLaunched r.waitFinished = .error failure ↔
      offence? records earlier r = some failure := fun _ =>
    checkDeclaration_eq_error_iff hfits fun _ => h.isSome_handle?
  apply ends_declare
  · exact fun failure hcheck => hoffence _ ((herror failure).mp hcheck)
  · intro hok
    have hnone : offence? records earlier r = none := by
      rw [Option.eq_none_iff_forall_not_mem]
      intro failure hfound
      cases hok.symm.trans ((herror failure).mpr hfound)
    obtain ⟨hfresh, hdeclared⟩ := checkDeclaration_eq_ok_iff.mp hok
    have hnew : r.id ∉ earlier.map TrafficRecord.id := by
      rw [← h.isSome_handle?, hfresh]
      decide
    have hwaits : ∀ id ∈ r.waits, id < r.id ∧ id ∈ earlier.map TrafficRecord.id := fun id hid =>
      ⟨(hdeclared id hid).1, h.isSome_handle?.mp (hdeclared id hid).2⟩
    have hnamed : ∀ id ∈ r.waits, id ∈ earlier.map TrafficRecord.id := fun id hid =>
      (hwaits id hid).2
    have hinside : t.scope.child t.ids.next = scope.child (trafficId records r.id) := by
      rw [h.scope_eq, h.next_eq, ← trafficId_of_split hsplit hnew]
    have hadmits : t.Admits (.startScenario (Service.filled (t.scope.child t.ids.next) registry r)
        (Service.bindings r)) := Service.binds_filled _ registry r (t.scope.child_ne _)
    have hresolves := h.resolves_trafficWait hsplit hnamed
    rw [hinside] at hinner hadmits hintact ⊢
    rw [h.extendWait_eq hnamed]
    refine ⟨hresolves, hadmits, hnone, h.snoc hsplit hnew hwaits hinner ?_⟩
    apply h.intact.withFunction hresolves hadmits
    rintro _ _ ⟨⟩
    exact hintact

theorem ends_traffics (h : Composed scope registry records [] {} t)
    (hoffence : ∀ failure, firstOffence? records = some failure → refused failure) :
    (records.foldlM (startTraffic registry servers) {}).Ends t refused fun c u =>
      firstOffence? records = none ∧ Composed scope registry records records c u := by
  refine Ends.imp (P := fun c u => Composed scope registry records records c u ∧
    ∀ after, records = records ++ after →
      firstOffence? records = offenceAfter? records records after) ?_ ?_
  · refine ends_foldlM (fun (before : List TrafficRecord) (c : Composer) u =>
      Composed scope registry records before c u ∧ ∀ after, records = before ++ after →
        firstOffence? records = offenceAfter? records before after) ?_ ⟨h, ?_⟩
    · rintro before r after c u hsplit ⟨hu, hfirst⟩
      have hnext := hfirst _ hsplit
      rw [offenceAfter?] at hnext
      refine (ends_startTraffic hrefused hservers hu hsplit ?_).imp ?_
      · intro failure hfailure
        rw [hfailure] at hnext
        exact hoffence failure hnext
      · rintro more v ⟨hnone, hv⟩
        refine ⟨hv, fun rest hrest => ?_⟩
        rw [hsplit, List.append_assoc, List.append_cancel_left_eq] at hrest
        obtain rfl := (List.cons.inj hrest).2
        rw [hnext, hnone, Option.none_or]
    · rintro after rfl
      rfl
  · rintro c u ⟨hu, hfirst⟩
    exact ⟨hfirst [] (List.append_nil _).symm, hu⟩

end Traffics

section Stops

/-- The functions that stop some servers. -/
def stopsOf (wait : WaitClause) (named : List (String × Handle)) : List (Payload × WaitClause) :=
  named.map fun server => (.stopJobs [server.2.reference], wait)

variable {named : List (String × Handle)} (hnamed : named.map Prod.snd =
  (List.range (serverLaunches records).length).map fun i => ⟨scope, i, .startJob⟩)

include hnamed

theorem stopsOf_eq (wait : WaitClause) :
    stopsOf wait named = (List.range (serverLaunches records).length).map fun i =>
      (.stopJobs [.own scope i], wait) := by
  have hstops : stopsOf wait named = (named.map Prod.snd).map fun handle =>
      (.stopJobs [handle.reference], wait) := by
    rw [List.map_map]
    rfl
  rw [hstops, hnamed, List.map_map]
  rfl

theorem ends_stopServers (h : Composed scope registry records records c t) :
    (named.forM (stopServer c.handles)).Ends t refused fun _ u =>
      u = (blank scope registry).withFunctions (arranged scope registry records) ∧
        u.Everywhere Intact := by
  let wait := afterTraffics scope records stopDelay
  have hall : t.withFunctions (stopsOf wait named) =
      (blank scope registry).withFunctions (arranged scope registry records) := by
    rw [h.scenario, carrying, ← withFunctions_append, stopsOf_eq hnamed]
    rfl
  rw [← hall]
  refine ends_forM (fun before u => u = t.withFunctions (stopsOf wait before) ∧
    u.Everywhere Intact) ?_ ⟨rfl, h.intact⟩
  rintro before server after _ hsplit ⟨rfl, hu⟩
  have hrow : t.withFunctions (stopsOf wait before) = (blank scope registry).withFunctions
      (serverFunctions records ++ trafficFunctions scope registry records records ++
        stopsOf wait before) := by
    rw [h.scenario, carrying, ← withFunctions_append]
  have hcoherent := hu.here.toCoherent
  rw [hrow] at hcoherent
  have hserver : server.2 ∈ named.map Prod.snd := List.mem_map_of_mem (by simp [hsplit])
  rw [hnamed] at hserver
  obtain ⟨i, hi, hserver⟩ := List.mem_map.mp hserver
  unfold stopServer
  refine (ends_scenario (Q := fun _ v => v = _) rfl).bind ?_
  rintro s _ rfl
  refine (ends_note (Q := fun _ v => v = _) rfl).bind ?_
  rintro - _ rfl
  dsimp only
  rw [h.afterAllFinished_eq]
  refine (ends_stopJobs hu ?_ ?_).bind ?_
  · rw [hrow]
    apply resolves_afterTraffics hcoherent
    rw [List.length_append, List.length_append, length_serverFunctions, length_trafficFunctions]
    exact Nat.le_add_right _ _
  · obtain ⟨launch, hlaunch⟩ : ∃ launch, (serverLaunches records)[i]? = some launch :=
      ⟨_, List.getElem?_eq_getElem (List.mem_range.mp hi)⟩
    rw [List.append_assoc] at hrow hcoherent
    rw [List.forall_mem_singleton, ← hserver, hrow]
    exact namesOwn_row hcoherent (getElem?_server hlaunch _)
  · rintro _ _ ⟨-, rfl, hv⟩
    refine ends_pure ⟨?_, hv⟩
    rw [stopsOf, stopsOf, List.map_append]
    exact (withFunctions_concat _ _ _ _).symm

end Stops

end Walk

end TrafficMix

end Orchestration
