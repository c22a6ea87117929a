import Orchestration.Duration
import Orchestration.Identity

namespace Orchestration

inductive FunctionKind where
  | startJob
  | stopJobs
  | startScenario
  | stopScenario
  deriving DecidableEq

def FunctionKind.name : FunctionKind → String
  | .startJob => "start_job_instance"
  | .stopJobs => "stop_job_instance"
  | .startScenario => "start_scenario_instance"
  | .stopScenario => "stop_scenario_instance"

/-- What a builder call returns for the function that it appended. -/
structure Handle where
  scope : Scope
  id : FunctionId
  kind : FunctionKind
  deriving DecidableEq

/-- A function of the scenario with the given scope or, under a host, a function of the scenario
that the host starts. -/
structure Reference where
  scope : Scope
  host : Option FunctionId
  id : FunctionId
  deriving DecidableEq

namespace Reference

def own (scope : Scope) (id : FunctionId) : Reference := ⟨scope, none, id⟩

/-- A function of the scenario that `host` starts. -/
def nested (scope : Scope) (host id : FunctionId) : Reference := ⟨scope, some host, id⟩

def isNested (r : Reference) : Bool := r.host.isSome

/-- The function of the scenario itself that the reference depends on. -/
def outerId (r : Reference) : FunctionId := r.host.getD r.id

/-- The key by which references ascend: a host comes right before the functions nested in it. -/
def sortKey (r : Reference) : FunctionId × Option FunctionId :=
  match r.host with
  | some host => (host, some r.id)
  | none => (r.id, none)

def keyLE (a b : FunctionId × Option FunctionId) : Bool :=
  if a.1 = b.1 then
    match a.2, b.2 with
    | none, _ => true
    | some _, none => false
    | some m, some n => m ≤ n
  else a.1 < b.1

def rescope (source target : Scope) (r : Reference) : Reference :=
  if r.scope = source then { r with scope := target } else r

end Reference

def Handle.reference (h : Handle) : Reference := .own h.scope h.id

/-- When a function may start: after some functions have finished, after others have been launched,
and a delay after that. -/
structure WaitClause where
  finished : List Reference := []
  launched : List Reference := []
  delay : Duration := .zero
  deriving DecidableEq

namespace WaitClause

/-- A list with a reference at its end, if it does not hold that reference yet. -/
def addOnce (targets : List Reference) (target : Reference) : List Reference :=
  if target ∈ targets then targets else targets ++ [target]

def afterFinished (w : WaitClause) (target : Reference) : WaitClause :=
  { w with finished := addOnce w.finished target }

def afterLaunched (w : WaitClause) (target : Reference) : WaitClause :=
  { w with launched := addOnce w.launched target }

def afterAllFinished (w : WaitClause) (targets : List Reference) : WaitClause :=
  { w with finished := targets.foldl addOnce w.finished }

def afterAllLaunched (w : WaitClause) (targets : List Reference) : WaitClause :=
  { w with launched := targets.foldl addOnce w.launched }

def withDelay (w : WaitClause) (delay : Duration) : WaitClause := { w with delay := delay }

def references (w : WaitClause) : List Reference := w.finished ++ w.launched

def isEmpty (w : WaitClause) : Bool :=
  w.finished.isEmpty && w.launched.isEmpty && w.delay = .zero

def rescope (source target : Scope) (w : WaitClause) : WaitClause :=
  { w with
    finished := w.finished.map (Reference.rescope source target)
    launched := w.launched.map (Reference.rescope source target) }

end WaitClause

end Orchestration
