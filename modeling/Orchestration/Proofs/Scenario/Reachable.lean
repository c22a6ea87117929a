import Mathlib.Data.Finset.Lattice.Fold
import Orchestration.Proofs.Scenario.Copy
import Orchestration.Proofs.Scenario.Growth

/-!
Scenarios that are built by calls. Whatever is called, in whatever order, with whatever handles and
references, and whether calls are refused or not, the scenario stays intact at every depth.

Nothing is asked of the scopes under which scenarios are created and copied, so all of this holds in
particular when every one of them is new.
-/

namespace Orchestration

/-- A call on a scenario in the making. -/
inductive Call where
  | addArgument (name description : String) (default : Option Json)
  | addConstant (name : String) (value : Json)
  | addFunction (payload : Payload) (wait : WaitClause)
  | startJob (job : JobLaunch) (wait : WaitClause)
  | stopJobs (targets : List Handle) (wait : WaitClause)
  | startScenario (inner : Scenario) (bindings : Entries String ParameterValue)
      (wait : WaitClause)
  | stopScenario (target : Handle) (wait : WaitClause)
  | setWait (handle : Handle) (wait : WaitClause)
  | copy (scope : Scope)

/-- What a call hands out. -/
inductive Reply where
  | argument (ref : ArgumentRef)
  | constant (ref : ConstantRef)
  | function (handle : Handle)
  | nothing

namespace Call

/-- Makes a call: what it hands out, and the scenario that the building goes on with. -/
def perform (s : Scenario) : Call → Except Failure (Reply × Scenario)
  | .addArgument name description default => do
    let (ref, s) ← s.addArgument name description default
    return (.argument ref, s)
  | .addConstant name value => do
    let (ref, s) ← s.addConstant name value
    return (.constant ref, s)
  | .addFunction payload wait => do
    let (handle, s) ← s.addFunction payload wait
    return (.function handle, s)
  | .startJob job wait => do
    let (handle, s) ← s.startJob job wait
    return (.function handle, s)
  | .stopJobs targets wait => do
    let (handle, s) ← s.stopJobs targets wait
    return (.function handle, s)
  | .startScenario inner bindings wait => do
    let (handle, s) ← s.startScenario inner bindings wait
    return (.function handle, s)
  | .stopScenario target wait => do
    let (handle, s) ← s.stopScenario target wait
    return (.function handle, s)
  | .setWait handle wait => do
    let s ← s.setWait handle wait
    return (.nothing, s)
  | .copy scope => return (.nothing, s.copy scope)

/-- The scenario that a call is to embed. -/
def embedded? : Call → Option Scenario
  | .addFunction payload _ => payload.started?.map Prod.fst
  | .startScenario inner _ _ => some inner
  | _ => none

/-- What a call that is not refused makes of a scenario, and what it needs for that. -/
inductive Yields (s : Scenario) (call : Call) : Scenario → Prop
  | argument {a : Argument} (hname : a.name ∉ s.parameters.uses.map Prod.fst) :
      Yields s call (s.withArgument a)
  | constant {c : Constant} (hname : c.name ∉ s.parameters.uses.map Prod.fst) :
      Yields s call (s.withConstant c)
  | function {payload : Payload} {wait : WaitClause}
      (hwait : ∀ r ∈ wait.references, s.Resolves r) (hadmits : s.Admits payload)
      (hembedded : call.embedded? = payload.started?.map Prod.fst) :
      Yields s call (s.withFunction payload wait)
  | rewired {id : FunctionId} {wait : WaitClause} (hwait : ∀ r ∈ wait.references, s.Resolves r)
      (hcycle : findCycle s.functions (some (id, wait)) = none) :
      Yields s call (s.rewired id wait)
  | copied {scope : Scope} (hcopy : call = .copy scope) : Yields s call (s.copy scope)

theorem yields_of_perform {s t : Scenario} {call : Call} {reply : Reply}
    (h : call.perform s = .ok (reply, t)) : call.Yields s t := by
  cases call with
  | addArgument name description default =>
      obtain ⟨⟨ref, u⟩, hadd, heq⟩ := Outcome.bind_eq_ok_iff.mp h
      cases heq
      obtain ⟨hname, -, rfl⟩ := Scenario.addArgument_eq_ok_iff.mp hadd
      exact .argument hname
  | addConstant name value =>
      obtain ⟨⟨ref, u⟩, hadd, heq⟩ := Outcome.bind_eq_ok_iff.mp h
      cases heq
      obtain ⟨hname, -, rfl⟩ := Scenario.addConstant_eq_ok_iff.mp hadd
      exact .constant hname
  | addFunction payload wait | startJob job wait | stopJobs targets wait
  | startScenario inner bindings wait | stopScenario target wait =>
      obtain ⟨⟨handle, u⟩, hadd, heq⟩ := Outcome.bind_eq_ok_iff.mp h
      cases heq
      obtain ⟨hwait, hadmits, -, rfl⟩ := Scenario.addFunction_eq_ok_iff.mp hadd
      exact .function hwait hadmits rfl
  | setWait handle wait =>
      obtain ⟨u, hset, heq⟩ := Outcome.bind_eq_ok_iff.mp h
      cases heq
      obtain ⟨-, hwait, hcycle, rfl⟩ := Scenario.setWait_eq_ok_iff.mp hset
      exact .rewired (fun r hr => (hwait r hr).1) hcycle
  | copy scope =>
      cases h
      exact .copied rfl

end Call

namespace Scenario

/-- The scenario after a call. A refused call leaves it as it is. -/
def after (s : Scenario) (call : Call) : Scenario :=
  match call.perform s with
  | .ok (_, t) => t
  | .error _ => s

/-- Built by calls from a new scenario, every embedded scenario being built in the same way. -/
inductive Reachable : Scenario → Prop
  | created (scope : Scope) (name description : String) (registry : JobRegistry) :
      Reachable (.create scope name description registry)
  | called {s : Scenario} (built : Reachable s) (call : Call)
      (embedded : ∀ inner, call.embedded? = some inner → Reachable inner) :
      Reachable (s.after call)

theorem intact_create (scope : Scope) (name description : String) (registry : JobRegistry) :
    (create scope name description registry).Intact := by
  refine ⟨⟨?_, ?_, ?_, ?_, fun _ => 0, ?_⟩, rfl, rfl, rfl⟩ <;>
    simp [create, ParameterTable.uses]

section Steps

variable {s : Scenario}

theorem Intact.id_lt (h : s.Intact) {f : ScenarioFunction} (hf : f ∈ s.functions) :
    f.id < s.functions.length := by
  have hmem : f.id ∈ s.functions.map ScenarioFunction.id := List.mem_map_of_mem hf
  rw [h.dense] at hmem
  exact List.mem_range.mp hmem

theorem Intact.outerId_lt (h : s.Intact) {r : Reference} (hr : s.Resolves r) :
    r.outerId < s.functions.length := by
  obtain ⟨f, hf⟩ := hr.outer
  obtain ⟨hmem, hid⟩ := mem_of_function? hf
  exact hid ▸ h.id_lt hmem

theorem Intact.withArgument (h : s.Intact) {a : Argument}
    (hname : a.name ∉ s.parameters.uses.map Prod.fst) : (s.withArgument a).Intact := by
  have hextends := extends_withArgument s a
  refine ⟨⟨?_, h.ids, ?_, ?_, h.ranked⟩, h.table, h.dense, h.next⟩
  · have hnames := h.names
    rw [ParameterTable.uses_names] at hname hnames ⊢
    simp only [Scenario.withArgument, List.map_append, List.map_cons, List.map_nil,
      List.append_assoc, List.singleton_append]
    rw [List.nodup_middle, List.nodup_cons]
    exact ⟨hname, hnames⟩
  · exact fun f hf r hr => hextends.resolves (h.waits f hf r hr)
  · exact fun f hf => hextends.admits (h.payloads f hf)

theorem Intact.withConstant (h : s.Intact) {c : Constant}
    (hname : c.name ∉ s.parameters.uses.map Prod.fst) : (s.withConstant c).Intact := by
  have hextends := extends_withConstant s c
  refine ⟨⟨?_, h.ids, ?_, ?_, h.ranked⟩, h.table, h.dense, h.next⟩
  · have hnames := h.names
    rw [ParameterTable.uses_names] at hname hnames ⊢
    simp only [Scenario.withConstant, List.map_append, List.map_cons, List.map_nil]
    rw [← List.append_assoc, List.nodup_middle, List.append_nil, List.nodup_cons]
    exact ⟨hname, hnames⟩
  · exact fun f hf r hr => hextends.resolves (h.waits f hf r hr)
  · exact fun f hf => hextends.admits (h.payloads f hf)

/-- A new function waits only for functions that are there, so it ranks above all of them. -/
theorem Intact.ranked_withFunction (h : s.Intact) {payload : Payload} {wait : WaitClause}
    (hwait : ∀ r ∈ wait.references, s.Resolves r) :
    ∃ rank : FunctionId → Nat, ∀ f ∈ (s.withFunction payload wait).functions,
      ∀ r ∈ f.wait.references, rank r.outerId < rank f.id := by
  obtain ⟨rank, hrank⟩ := h.ranked
  let top := (Finset.range s.functions.length).sup rank + 1
  let raised : FunctionId → Nat := fun id => if id < s.functions.length then rank id else top
  have hold : ∀ id, id < s.functions.length → raised id = rank id := fun id hid => if_pos hid
  refine ⟨raised, ?_⟩
  intro f hf r hr
  rcases List.mem_append.mp hf with hf | hf
  · rw [hold _ (h.outerId_lt (h.waits f hf r hr)), hold _ (h.id_lt hf)]
    exact hrank f hf r hr
  · obtain rfl := List.mem_singleton.mp hf
    have hlt := h.outerId_lt (hwait r hr)
    have hnew : raised s.ids.next = top := if_neg (by rw [h.next]; exact Nat.lt_irrefl _)
    rw [hold _ hlt, hnew]
    exact Nat.lt_succ_of_le (Finset.le_sup (Finset.mem_range.mpr hlt))

theorem Intact.withFunction (h : s.Intact) {payload : Payload} {wait : WaitClause}
    (hwait : ∀ r ∈ wait.references, s.Resolves r) (hpayload : s.Admits payload) :
    (s.withFunction payload wait).Intact := by
  have hextends := h.extends_withFunction payload wait
  have hdense := h.ids_withFunction payload wait
  refine ⟨⟨h.names, ?_, ?_, ?_, h.ranked_withFunction hwait⟩, h.table, hdense, ?_⟩
  · rw [hdense]
    exact List.pairwise_lt_range
  · intro f hf r hr
    rcases List.mem_append.mp hf with hf | hf
    · exact hextends.resolves (h.waits f hf r hr)
    · rw [List.mem_singleton.mp hf] at hr
      exact hextends.resolves (hwait r hr)
  · intro f hf
    rcases List.mem_append.mp hf with hf | hf
    · exact hextends.admits (h.payloads f hf)
    · rw [List.mem_singleton.mp hf]
      exact hextends.admits hpayload
  · simp [Scenario.withFunction, h.next]

theorem Intact.rewired (h : s.Intact) {id : FunctionId} {wait : WaitClause}
    (hwait : ∀ r ∈ wait.references, s.Resolves r)
    (hcycle : findCycle s.functions (some (id, wait)) = none) : (s.rewired id wait).Intact := by
  have hextends := extends_rewired s id wait
  have hids : (s.rewired id wait).functions.map ScenarioFunction.id =
      s.functions.map ScenarioFunction.id := by
    rw [Scenario.rewired, List.map_map]
    apply List.map_congr_left
    intro f _
    by_cases hid : f.id = id <;> simp [hid]
  refine ⟨⟨h.names, ?_, ?_, ?_, ?_⟩, h.table, ?_, ?_⟩
  · rw [hids]
    exact h.ids
  · intro f hf r hr
    obtain ⟨g, hg, rfl⟩ := List.mem_map.mp hf
    apply hextends.resolves
    by_cases hid : g.id = id
    · rw [if_pos hid] at hr
      exact hwait r hr
    · rw [if_neg hid] at hr
      exact h.waits g hg r hr
  · intro f hf
    obtain ⟨g, hg, rfl⟩ := List.mem_map.mp hf
    have hpayload : (if g.id = id then { g with wait := wait } else g).payload = g.payload := by
      by_cases hid : g.id = id <;> simp [hid]
    rw [hpayload]
    exact hextends.admits (h.payloads g hg)
  · obtain ⟨rank, hrank⟩ := (findCycle_eq_none_iff h.ids_nodup).mp hcycle
    refine ⟨rank, ?_⟩
    intro f hf r hr
    obtain ⟨g, hg, rfl⟩ := List.mem_map.mp hf
    have hclause := hrank g hg
    by_cases hid : g.id = id
    · rw [if_pos hid] at hr ⊢
      exact hclause r (by simpa [WaitGraph.clauseOf, hid] using hr)
    · rw [if_neg hid] at hr ⊢
      exact hclause r (by simpa [WaitGraph.clauseOf, Ne.symm hid] using hr)
  · rw [hids, h.dense]
    simp [Scenario.rewired]
  · simp [Scenario.rewired, h.next]

theorem Everywhere.withArgument (h : s.Everywhere Intact) {a : Argument}
    (hname : a.name ∉ s.parameters.uses.map Prod.fst) : (s.withArgument a).Everywhere Intact :=
  .intro (h.here.withArgument hname) fun _ hstarts => h.inside hstarts

theorem Everywhere.withConstant (h : s.Everywhere Intact) {c : Constant}
    (hname : c.name ∉ s.parameters.uses.map Prod.fst) : (s.withConstant c).Everywhere Intact :=
  .intro (h.here.withConstant hname) fun _ hstarts => h.inside hstarts

theorem Everywhere.withFunction (h : s.Everywhere Intact) {payload : Payload} {wait : WaitClause}
    (hwait : ∀ r ∈ wait.references, s.Resolves r) (hadmits : s.Admits payload)
    (hembedded : ∀ inner bindings, payload = .startScenario inner bindings →
      inner.Everywhere Intact) : (s.withFunction payload wait).Everywhere Intact := by
  refine .intro (h.here.withFunction hwait hadmits) ?_
  rintro inner ⟨f, hf, bindings, hstarts⟩
  rcases List.mem_append.mp hf with hf | hf
  · exact h.inside ⟨f, hf, bindings, hstarts⟩
  · obtain rfl := List.mem_singleton.mp hf
    exact hembedded inner bindings hstarts

theorem Everywhere.rewired (h : s.Everywhere Intact) {id : FunctionId} {wait : WaitClause}
    (hwait : ∀ r ∈ wait.references, s.Resolves r)
    (hcycle : findCycle s.functions (some (id, wait)) = none) :
    (s.rewired id wait).Everywhere Intact := by
  refine .intro (h.here.rewired hwait hcycle) ?_
  rintro inner ⟨f, hf, bindings, hstarts⟩
  obtain ⟨g, hg, rfl⟩ := List.mem_map.mp hf
  refine h.inside ⟨g, hg, bindings, ?_⟩
  by_cases hid : g.id = id
  · rw [if_pos hid] at hstarts
    exact hstarts
  · rw [if_neg hid] at hstarts
    exact hstarts

/-- One call that is not refused keeps a scenario intact. -/
theorem Everywhere.yields (h : s.Everywhere Intact) {t : Scenario} {call : Call}
    (hembedded : ∀ inner, call.embedded? = some inner → inner.Everywhere Intact)
    (hyields : call.Yields s t) : t.Everywhere Intact := by
  cases hyields with
  | argument hname => exact h.withArgument hname
  | constant hname => exact h.withConstant hname
  | function hwait hadmits hcall =>
      refine h.withFunction hwait hadmits ?_
      rintro inner bindings rfl
      exact hembedded inner hcall
  | rewired hwait hcycle => exact h.rewired hwait hcycle
  | copied _ => exact everywhere_intact_copy _ h

end Steps

/-- Whatever is called in building it, a scenario is intact at every depth. -/
theorem Reachable.everywhere_intact {s : Scenario} (h : s.Reachable) : s.Everywhere Intact := by
  induction h with
  | created scope name description registry =>
      refine .intro (intact_create scope name description registry) ?_
      rintro inner ⟨f, hf, -⟩
      simp [create] at hf
  | called built call embedded ih ihEmbedded =>
      unfold after
      split
      next hcall => exact ih.yields ihEmbedded (Call.yields_of_perform hcall)
      next => exact ih

section Sample

/-- A scenario with one job, which takes its size from outside. -/
def worker : Scenario :=
  ((create (.root 0) "worker" "").after (.addArgument "size" "" none)).after
    (.startJob
      { job := "iperf", entity := "server", arguments := [("size", .argument ⟨.root 0, "size"⟩)] }
      {})

/-- A scenario that starts the worker, waits for the launch of its job, and is rewired so that the
worker waits for a function that was added after it. -/
def manager : Scenario :=
  (((((create (.root 1) "manager" "").after
    (.addConstant "amount" (.ofNat 5))).after
    (.startScenario worker [("size", .constant ⟨.root 1, "amount"⟩)] {})).after
    (.startJob { job := "fping", entity := "client" }
      { launched := [.nested (.root 1) 0 0] })).after
    (.stopJobs [⟨.root 1, 1, .startJob⟩] {})).after
    (.setWait ⟨.root 1, 0, .startScenario⟩ { finished := [.own (.root 1) 2] })

theorem worker_reachable : worker.Reachable :=
  ((Reachable.created _ _ _ _).called _ (by simp [Call.embedded?])).called _
    (by simp [Call.embedded?])

theorem manager_reachable : manager.Reachable := by
  refine .called (.called (.called (.called (.called (.created _ _ _ _) _ ?_) _ ?_) _ ?_) _ ?_) _ ?_
  case refine_2 =>
    rintro inner ⟨⟩
    exact worker_reachable
  all_goals simp [Call.embedded?]

/-- None of the calls is refused. -/
example : manager.functions.map (fun f => (f.id, f.wait.references)) =
    [(0, [.own (.root 1) 2]), (1, [.nested (.root 1) 0 0]), (2, [])] := by
  rfl

end Sample

end Scenario

end Orchestration
