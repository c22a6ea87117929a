import Mathlib.Data.List.Nodup
import Orchestration.Proofs.Scenario.Outline

/-!
Sequential executions of scenarios and of descriptions, with everything embedded in them. A coherent
scenario always has one: at each level functions run one after the other, in the order of their
ranks, and what a function embeds runs between its launch and its finish.
-/

namespace Orchestration

inductive Stage where
  | launched
  | finished
  deriving DecidableEq

/-- A function is launched or finishes. It is named by its id and by its hosts, outermost first. -/
structure Occurrence where
  stage : Stage
  hosts : List FunctionId
  id : FunctionId
  deriving DecidableEq

/-- A function and what it waits for. -/
structure Task where
  id : FunctionId
  waitFinished : List Target
  waitLaunched : List Target

namespace Target

/-- The hosts of a target that is named where the given hosts are. -/
def hosts (above : List FunctionId) : Target → List FunctionId
  | .own _ => above
  | .nested host _ => above ++ [host]

/-- The id of a target inside its own scenario. -/
def innerId : Target → FunctionId
  | .own id => id
  | .nested _ id => id

theorem hosts_cons (host : FunctionId) (above : List FunctionId) (target : Target) :
    target.hosts (host :: above) = host :: target.hosts above := by
  cases target <;> rfl

end Target

/-- The first event stands somewhere before the second one. -/
def Before (trace : List Occurrence) (a b : Occurrence) : Prop := [a, b].Sublist trace

/-- The trace is a sequential execution of the tasks that stand under hosts. Every task is launched
once and finishes once, in this order; it is launched after its host was and finishes before its
host does; and when it is launched, whatever it waits for has finished or has been launched. -/
structure Execution (Located : List FunctionId → Task → Prop) (trace : List Occurrence) : Prop where
  nodup : trace.Nodup
  complete : ∀ stage hosts id,
    ⟨stage, hosts, id⟩ ∈ trace ↔ ∃ task, Located hosts task ∧ task.id = id
  runs : ∀ hosts task, Located hosts task →
    Before trace ⟨.launched, hosts, task.id⟩ ⟨.finished, hosts, task.id⟩
  afterHost : ∀ hosts host task, Located (hosts ++ [host]) task →
    Before trace ⟨.launched, hosts, host⟩ ⟨.launched, hosts ++ [host], task.id⟩
  beforeHost : ∀ hosts host task, Located (hosts ++ [host]) task →
    Before trace ⟨.finished, hosts ++ [host], task.id⟩ ⟨.finished, hosts, host⟩
  waitFinished : ∀ hosts task, Located hosts task → ∀ target ∈ task.waitFinished,
    Before trace ⟨.finished, target.hosts hosts, target.innerId⟩ ⟨.launched, hosts, task.id⟩
  waitLaunched : ∀ hosts task, Located hosts task → ∀ target ∈ task.waitLaunched,
    Before trace ⟨.launched, target.hosts hosts, target.innerId⟩ ⟨.launched, hosts, task.id⟩

def ScenarioFunction.task (f : ScenarioFunction) : Task :=
  ⟨f.id, f.wait.finished.map Reference.target, f.wait.launched.map Reference.target⟩

def FunctionRecord.task (r : FunctionRecord) : Task := ⟨r.id, r.waitFinished, r.waitLaunched⟩

/-- The tasks of a scenario, under the hosts that embed them. -/
inductive Scenario.Located : Scenario → List FunctionId → Task → Prop
  | here {s : Scenario} {f : ScenarioFunction} (hf : f ∈ s.functions) : Located s [] f.task
  | inside {s inner : Scenario} {host : ScenarioFunction}
      {bindings : Entries String ParameterValue} {hosts : List FunctionId} {task : Task}
      (hhost : host ∈ s.functions) (hstarts : host.payload = .startScenario inner bindings)
      (h : Located inner hosts task) : Located s (host.id :: hosts) task

/-- The tasks of a description, under the hosts that embed them. -/
inductive Description.Located : Description → List FunctionId → Task → Prop
  | here {d : Description} {f : FunctionRecord} (hf : f ∈ d.functions) : Located d [] f.task
  | inside {d inner : Description} {host : FunctionRecord} {name : String}
      {arguments : Entries String Json} {hosts : List FunctionId} {task : Task}
      (hhost : host ∈ d.functions) (hstarts : host.payload = .startScenario name inner arguments)
      (h : Located inner hosts task) : Located d (host.id :: hosts) task

theorem FunctionOutlined.task_eq {owner : Scenario} {f : ScenarioFunction} {r : FunctionRecord}
    (h : FunctionOutlined owner f r) : r.task = f.task := by
  rw [FunctionRecord.task, ScenarioFunction.task, h.id, h.waitFinished, h.waitLaunched]

/-- A description has the tasks of its scenario, under the same hosts. -/
theorem Scenario.located_iff {s : Scenario} {d : Description} (h : s.outline = .ok d)
    {hosts : List FunctionId} {task : Task} : s.Located hosts task ↔ d.Located hosts task := by
  constructor
  · intro hlocated
    induction hlocated generalizing d with
    | here hf =>
        obtain ⟨r, hr, houtlined⟩ := exists_of_mem_left (outline_eq_ok_iff.mp h).functions hf
        exact houtlined.task_eq ▸ .here hr
    | inside hhost hstarts _ ih =>
        obtain ⟨r, hr, houtlined⟩ := exists_of_mem_left (outline_eq_ok_iff.mp h).functions hhost
        have hpayload := houtlined.payload
        rw [hstarts] at hpayload
        generalize hrecord : r.payload = record at hpayload
        cases hpayload with
        | startScenario hscenario _ =>
            exact houtlined.id ▸ .inside hr hrecord (ih hscenario)
  · intro hlocated
    induction hlocated generalizing s with
    | here hr =>
        obtain ⟨f, hf, houtlined⟩ := exists_of_mem_right (outline_eq_ok_iff.mp h).functions hr
        exact houtlined.task_eq ▸ .here hf
    | inside hhost hstarts _ ih =>
        obtain ⟨f, hf, houtlined⟩ := exists_of_mem_right (outline_eq_ok_iff.mp h).functions hhost
        have hrecord := houtlined.payload
        rw [hstarts] at hrecord
        generalize hpayload : f.payload = payload at hrecord
        cases hrecord with
        | startScenario hscenario _ =>
            exact houtlined.id ▸ .inside hf hpayload (ih hscenario)

section Blocks

/-- The event as it is named one level further out. -/
def Occurrence.under (host : FunctionId) (e : Occurrence) : Occurrence :=
  { e with hosts := host :: e.hosts }

/-- The function of the outermost level that an event belongs to. -/
def Occurrence.top (e : Occurrence) : FunctionId := e.hosts.headD e.id

/-- What happens from the launch of a function to its finish. -/
def block (id : FunctionId) (inside : List Occurrence) : List Occurrence :=
  ⟨.launched, [], id⟩ :: (inside.map (Occurrence.under id) ++ [⟨.finished, [], id⟩])

variable {id : FunctionId} {inside : List Occurrence} {a b : Occurrence}

theorem Occurrence.under_injective (host : FunctionId) :
    Function.Injective (Occurrence.under host) := by
  rintro ⟨stage, hosts, id⟩ ⟨stage', hosts', id'⟩ h
  simpa [Occurrence.under] using h

theorem mem_block_nil_iff {stage : Stage} {other : FunctionId} :
    ⟨stage, [], other⟩ ∈ block id inside ↔ other = id := by
  cases stage <;> simp [block, Occurrence.under]

theorem mem_block_cons_iff {stage : Stage} {host other : FunctionId} {hosts : List FunctionId} :
    ⟨stage, host :: hosts, other⟩ ∈ block id inside ↔
      host = id ∧ ⟨stage, hosts, other⟩ ∈ inside := by
  simp only [block, List.mem_cons, List.mem_append, List.mem_map, Occurrence.mk.injEq]
  constructor
  · rintro (⟨-, h, -⟩ | ⟨e, he, h⟩ | ⟨-, h, -⟩ | h)
    · cases h
    · cases h
      exact ⟨rfl, he⟩
    · cases h
    · cases h
  · rintro ⟨rfl, h⟩
    exact .inr (.inl ⟨_, h, rfl⟩)

theorem top_of_mem_block (h : a ∈ block id inside) : a.top = id := by
  obtain ⟨stage, hosts, other⟩ := a
  cases hosts with
  | nil => exact mem_block_nil_iff.mp h
  | cons host hosts => exact (mem_block_cons_iff.mp h).1

theorem nodup_block (h : inside.Nodup) : (block id inside).Nodup := by
  rw [block, List.nodup_cons, List.nodup_append]
  refine ⟨?_, h.map (Occurrence.under_injective id), List.nodup_singleton _, ?_⟩
  · simp [Occurrence.under]
  · rintro e he last hlast rfl
    obtain ⟨inner, -, rfl⟩ := List.mem_map.mp he
    simp [Occurrence.under] at hlast

theorem before_block_runs : Before (block id inside) ⟨.launched, [], id⟩ ⟨.finished, [], id⟩ :=
  List.Sublist.cons_cons _ (List.sublist_append_right _ _)

theorem before_block_launched (h : a ∈ inside) :
    Before (block id inside) ⟨.launched, [], id⟩ (a.under id) := by
  refine List.Sublist.cons_cons _ (List.singleton_sublist.mpr ?_)
  exact List.mem_append_left _ (List.mem_map_of_mem h)

theorem before_block_finished (h : a ∈ inside) :
    Before (block id inside) (a.under id) ⟨.finished, [], id⟩ := by
  have hmem : a.under id ∈ inside.map (Occurrence.under id) := List.mem_map_of_mem h
  exact ((List.singleton_sublist.mpr hmem).append (List.Sublist.refl _)).cons _

theorem Before.block (h : Before inside a b) :
    Before (block id inside) (a.under id) (b.under id) :=
  ((List.Sublist.map (Occurrence.under id) h).trans (List.sublist_append_left _ _)).cons _

end Blocks

section Levels

variable {order : List ScenarioFunction} {rank : FunctionId → Nat}
  {blocks : ScenarioFunction → List Occurrence} {f g : ScenarioFunction} {a b : Occurrence}

theorem Before.flatMap (h : Before (blocks f) a b) (hf : f ∈ order) :
    Before (order.flatMap blocks) a b := by
  rw [List.flatMap_def]
  exact List.Sublist.trans h (List.sublist_flatten_of_mem (List.mem_map_of_mem hf))

/-- Where functions stand in the order of their ranks, whatever happens in the block of one comes
before whatever happens in the block of one of higher rank. -/
theorem before_flatMap_of_rank
    (hsorted : order.Pairwise fun f g => rank f.id ≤ rank g.id) (hf : f ∈ order) (hg : g ∈ order)
    (hrank : rank f.id < rank g.id) (ha : a ∈ blocks f) (hb : b ∈ blocks g) :
    Before (order.flatMap blocks) a b := by
  obtain ⟨first, last, rfl⟩ := List.append_of_mem hg
  have hfirst : f ∈ first := by
    rcases List.mem_append.mp hf with hf | hf
    · exact hf
    · have hle : rank g.id ≤ rank f.id := by
        rcases List.mem_cons.mp hf with rfl | hf
        · exact Nat.le_refl _
        · exact List.rel_of_pairwise_cons (List.pairwise_append.mp hsorted).2.1 hf
      omega
  rw [List.flatMap_append]
  refine (List.singleton_sublist.mpr ?_).append (List.singleton_sublist.mpr ?_)
  · exact List.mem_flatMap.mpr ⟨f, hfirst, ha⟩
  · exact List.mem_flatMap.mpr ⟨g, List.mem_cons_self, hb⟩

end Levels

/-- The tasks of the scenario that a function starts, if it starts one. -/
def ScenarioFunction.Inside (f : ScenarioFunction) (hosts : List FunctionId) (task : Task) : Prop :=
  ∃ inner bindings, f.payload = .startScenario inner bindings ∧ inner.Located hosts task

namespace Scenario

variable {s : Scenario}

theorem located_nil_iff {task : Task} :
    s.Located [] task ↔ ∃ f ∈ s.functions, f.task = task := by
  constructor
  · rintro (hf | _)
    exact ⟨_, hf, rfl⟩
  · rintro ⟨f, hf, rfl⟩
    exact .here hf

theorem located_cons_iff {host : FunctionId} {hosts : List FunctionId} {task : Task} :
    s.Located (host :: hosts) task ↔ ∃ f ∈ s.functions, f.id = host ∧ f.Inside hosts task := by
  constructor
  · rintro (_ | ⟨hhost, hstarts, h⟩)
    exact ⟨_, hhost, rfl, _, _, hstarts, h⟩
  · rintro ⟨f, hf, rfl, inner, bindings, hstarts, h⟩
    exact .inside hf hstarts h

section Levels

variable {inside : ScenarioFunction → List Occurrence}

/-- Whatever a reference names happens in the block of the function that it depends on. -/
theorem Resolves.exists_mem_block (hinside : ∀ f ∈ s.functions, Execution f.Inside (inside f))
    {r : Reference} (hr : s.Resolves r) (stage : Stage) :
    ∃ g ∈ s.functions, g.id = r.outerId ∧
      ⟨stage, r.target.hosts [], r.target.innerId⟩ ∈ block g.id (inside g) := by
  obtain ⟨scope, host, id⟩ := r
  cases host with
  | none =>
      obtain ⟨g, -, hg⟩ := hr
      obtain ⟨hmem, hid⟩ := mem_of_function? hg
      exact ⟨g, hmem, hid, mem_block_nil_iff.mpr hid.symm⟩
  | some host =>
      obtain ⟨f, -, g, inner, bindings, hg, hstarts, hf⟩ := hr
      obtain ⟨hmem, hid⟩ := mem_of_function? hg
      obtain ⟨hfmem, hfid⟩ := mem_of_function? hf
      refine ⟨g, hmem, hid, mem_block_cons_iff.mpr ⟨hid.symm, ?_⟩⟩
      refine ((hinside g hmem).complete stage [] id).mpr ⟨f.task, ?_, hfid⟩
      exact ⟨inner, bindings, hstarts, .here hfmem⟩

variable {order : List ScenarioFunction} {rank : FunctionId → Nat}

theorem nodup_flatMap_block (hids : (order.map ScenarioFunction.id).Nodup)
    (hinside : ∀ f ∈ order, (inside f).Nodup) :
    (order.flatMap fun f => block f.id (inside f)).Nodup := by
  rw [List.nodup_flatMap]
  refine ⟨fun f hf => nodup_block (hinside f hf), ?_⟩
  apply (List.pairwise_map.mp hids).imp
  intro f g hne e hef heg
  exact hne ((top_of_mem_block hef).symm.trans (top_of_mem_block heg))

theorem mem_flatMap_block_iff (hperm : order.Perm s.functions)
    (hinside : ∀ f ∈ s.functions, Execution f.Inside (inside f)) {stage : Stage}
    {hosts : List FunctionId} {id : FunctionId} :
    ⟨stage, hosts, id⟩ ∈ order.flatMap (fun f => block f.id (inside f)) ↔
      ∃ task, s.Located hosts task ∧ task.id = id := by
  simp only [List.mem_flatMap, hperm.mem_iff]
  cases hosts with
  | nil =>
      simp only [mem_block_nil_iff, located_nil_iff]
      constructor
      · rintro ⟨f, hf, rfl⟩
        exact ⟨f.task, ⟨f, hf, rfl⟩, rfl⟩
      · rintro ⟨_, ⟨f, hf, rfl⟩, rfl⟩
        exact ⟨f, hf, rfl⟩
  | cons host hosts =>
      simp only [mem_block_cons_iff, located_cons_iff]
      constructor
      · rintro ⟨f, hf, rfl, hmem⟩
        obtain ⟨task, htask, hid⟩ := ((hinside f hf).complete stage hosts id).mp hmem
        exact ⟨task, ⟨f, hf, rfl, htask⟩, hid⟩
      · rintro ⟨task, ⟨f, hf, rfl, htask⟩, hid⟩
        exact ⟨f, hf, rfl, ((hinside f hf).complete stage hosts id).mpr ⟨task, htask, hid⟩⟩

/-- What a function waits for happens in a block of lower rank, so before the function. -/
theorem before_flatMap_of_waits
    (hwaits : ∀ f ∈ s.functions, ∀ r ∈ f.wait.references, s.Resolves r)
    (hrank : ∀ f ∈ s.functions, ∀ r ∈ f.wait.references, rank r.outerId < rank f.id)
    (hperm : order.Perm s.functions)
    (hsorted : order.Pairwise fun f g => rank f.id ≤ rank g.id)
    (hinside : ∀ f ∈ s.functions, Execution f.Inside (inside f)) {f : ScenarioFunction}
    (hf : f ∈ s.functions) {r : Reference} (hr : r ∈ f.wait.references) (stage : Stage) :
    Before (order.flatMap fun f => block f.id (inside f))
      ⟨stage, r.target.hosts [], r.target.innerId⟩ ⟨.launched, [], f.id⟩ := by
  obtain ⟨g, hg, hgid, hmem⟩ := (hwaits f hf r hr).exists_mem_block hinside stage
  have hlower : rank g.id < rank f.id := hgid ▸ hrank f hf r hr
  exact before_flatMap_of_rank hsorted (hperm.mem_iff.mpr hg) (hperm.mem_iff.mpr hf) hlower hmem
    (mem_block_nil_iff.mpr rfl)

/-- One level: blocks in the order of ranks are an execution, if what stands inside them is. -/
theorem execution_flatMap (hids : (s.functions.map ScenarioFunction.id).Nodup)
    (hwaits : ∀ f ∈ s.functions, ∀ r ∈ f.wait.references, s.Resolves r)
    (hrank : ∀ f ∈ s.functions, ∀ r ∈ f.wait.references, rank r.outerId < rank f.id)
    (hperm : order.Perm s.functions)
    (hsorted : order.Pairwise fun f g => rank f.id ≤ rank g.id)
    (hinside : ∀ f ∈ s.functions, Execution f.Inside (inside f)) :
    Execution s.Located (order.flatMap fun f => block f.id (inside f)) := by
  have hlift : ∀ f ∈ s.functions, ∀ a b, Before (block f.id (inside f)) a b →
      Before (order.flatMap fun f => block f.id (inside f)) a b :=
    fun f hf a b h => Before.flatMap h (hperm.mem_iff.mpr hf)
  constructor
  case nodup =>
    apply nodup_flatMap_block ((hperm.map _).nodup_iff.mpr hids)
    exact fun f hf => (hinside f (hperm.mem_iff.mp hf)).nodup
  case complete => exact fun stage hosts id => mem_flatMap_block_iff hperm hinside
  case runs =>
    rintro (_ | ⟨host, hosts⟩) task hlocated
    · obtain ⟨f, hf, rfl⟩ := located_nil_iff.mp hlocated
      exact hlift f hf _ _ before_block_runs
    · obtain ⟨f, hf, rfl, htask⟩ := located_cons_iff.mp hlocated
      exact hlift f hf _ _ ((hinside f hf).runs hosts task htask).block
  case afterHost =>
    rintro (_ | ⟨outer, hosts⟩) host task hlocated
    · obtain ⟨f, hf, rfl, htask⟩ := located_cons_iff.mp hlocated
      apply hlift f hf _ _ (before_block_launched (a := ⟨.launched, [], task.id⟩) _)
      exact ((hinside f hf).complete _ _ _).mpr ⟨task, htask, rfl⟩
    · obtain ⟨f, hf, rfl, htask⟩ := located_cons_iff.mp hlocated
      exact hlift f hf _ _ ((hinside f hf).afterHost hosts host task htask).block
  case beforeHost =>
    rintro (_ | ⟨outer, hosts⟩) host task hlocated
    · obtain ⟨f, hf, rfl, htask⟩ := located_cons_iff.mp hlocated
      apply hlift f hf _ _ (before_block_finished (a := ⟨.finished, [], task.id⟩) _)
      exact ((hinside f hf).complete _ _ _).mpr ⟨task, htask, rfl⟩
    · obtain ⟨f, hf, rfl, htask⟩ := located_cons_iff.mp hlocated
      exact hlift f hf _ _ ((hinside f hf).beforeHost hosts host task htask).block
  case waitFinished =>
    rintro (_ | ⟨host, hosts⟩) task hlocated target htarget
    · obtain ⟨f, hf, rfl⟩ := located_nil_iff.mp hlocated
      obtain ⟨r, hr, rfl⟩ := List.mem_map.mp htarget
      exact before_flatMap_of_waits hwaits hrank hperm hsorted hinside hf
        (List.mem_append_left _ hr) .finished
    · obtain ⟨f, hf, rfl, htask⟩ := located_cons_iff.mp hlocated
      rw [Target.hosts_cons]
      exact hlift f hf _ _ ((hinside f hf).waitFinished hosts task htask target htarget).block
  case waitLaunched =>
    rintro (_ | ⟨host, hosts⟩) task hlocated target htarget
    · obtain ⟨f, hf, rfl⟩ := located_nil_iff.mp hlocated
      obtain ⟨r, hr, rfl⟩ := List.mem_map.mp htarget
      exact before_flatMap_of_waits hwaits hrank hperm hsorted hinside hf
        (List.mem_append_right _ hr) .launched
    · obtain ⟨f, hf, rfl, htask⟩ := located_cons_iff.mp hlocated
      rw [Target.hosts_cons]
      exact hlift f hf _ _ ((hinside f hf).waitLaunched hosts task htask target htarget).block

end Levels

theorem execution_nil {Located : List FunctionId → Task → Prop}
    (h : ∀ hosts task, ¬ Located hosts task) : Execution Located [] where
  nodup := List.nodup_nil
  complete := by simp [h]
  runs := fun hosts task hlocated => absurd hlocated (h hosts task)
  afterHost := fun _ _ task hlocated => absurd hlocated (h _ task)
  beforeHost := fun _ _ task hlocated => absurd hlocated (h _ task)
  waitFinished := fun hosts task hlocated => absurd hlocated (h hosts task)
  waitLaunched := fun hosts task hlocated => absurd hlocated (h hosts task)

theorem Everywhere.exists_execution (h : s.Everywhere Coherent) :
    ∃ trace, Execution s.Located trace := by
  induction h with
  | @intro s here _ ih =>
      have hinside : ∀ f, ∃ trace, f ∈ s.functions → Execution f.Inside trace := by
        intro f
        by_cases hstarts : f ∈ s.functions ∧
            ∃ inner bindings, f.payload = .startScenario inner bindings
        · obtain ⟨hf, inner, bindings, hpayload⟩ := hstarts
          obtain ⟨trace, htrace⟩ := ih inner ⟨f, hf, bindings, hpayload⟩
          refine ⟨trace, fun _ => ?_⟩
          have hsame : f.Inside = inner.Located := by
            funext hosts task
            simp [ScenarioFunction.Inside, hpayload]
          exact hsame ▸ htrace
        · refine ⟨[], fun hf => execution_nil ?_⟩
          rintro hosts task ⟨inner, bindings, hpayload, -⟩
          exact hstarts ⟨hf, inner, bindings, hpayload⟩
      choose inside hinside using hinside
      obtain ⟨rank, hrank⟩ := here.ranked
      let order := s.functions.mergeSort fun f g => rank f.id ≤ rank g.id
      have hsorted : order.Pairwise fun f g => decide (rank f.id ≤ rank g.id) := by
        apply List.pairwise_mergeSort
        · intro f g h hfg hgh
          simp only [decide_eq_true_eq] at hfg hgh ⊢
          exact Nat.le_trans hfg hgh
        · intro f g
          simpa using Nat.le_total (rank f.id) (rank g.id)
      exact ⟨_, execution_flatMap here.ids_nodup here.waits hrank (List.mergeSort_perm _ _)
        (hsorted.imp fun hle => of_decide_eq_true hle) hinside⟩

/-- A scenario that is built by calls can be executed as a whole, and so can its description. -/
theorem Reachable.executable (h : s.Reachable) :
    ∃ d, s.describe = .ok d ∧ ∃ trace, Execution s.Located trace ∧ Execution d.Located trace := by
  obtain ⟨d, hdescribe, houtline⟩ := h.exists_describe
  obtain ⟨trace, htrace⟩ := (describe_eq_ok_iff.mp hdescribe).1.exists_execution
  refine ⟨d, hdescribe, trace, htrace, ?_⟩
  have hsame : s.Located = d.Located := by
    funext hosts task
    exact propext (located_iff houtline)
  exact hsame ▸ htrace

theorem manager_executable :
    ∃ d, manager.describe = .ok d ∧
      ∃ trace, Execution manager.Located trace ∧ Execution d.Located trace :=
  Reachable.executable manager_reachable

end Scenario

end Orchestration
