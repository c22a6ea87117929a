import Orchestration.Proofs.Renaming.Copies
import Orchestration.Proofs.Renaming.Questions
import Orchestration.Proofs.Scenario.Reachable

namespace Orchestration

open Outcome

/-- What can be asked of a scenario, and of the scenarios that its functions start. -/
inductive Query where
  | itself
  | function (id : FunctionId)
  | argument (name : String)
  | constant (name : String)
  | resolves (ref : ArgumentRef)
  | value (ref : ConstantRef)
  | embedded (host : Handle)
  | nested (host : Handle) (id : FunctionId)
  | nestedHandle (host inner : Handle)
  | jobs (predicate : JobLaunch → Bool)
  | handles (job : String)
  | validate
  | describe
  | text (style : Json.Style)
  | inside (host : Handle) (query : Query)

inductive Answer where
  | reply (reply : Reply)
  | scenario (s : Scenario)
  | function (f : Option ScenarioFunction)
  | argument (ref : Option ArgumentRef)
  | constant (ref : Option ConstantRef)
  | resolves (verdict : Bool)
  | value (value : Option Json)
  | reference (r : Reference)
  | jobs (found : List ExtractedJob)
  | handles (handles : List Handle)
  | valid
  | description (d : Description)
  | text (text : String)

def Query.ask : Query → Scenario → Except Failure Answer
  | .itself, s => return .scenario s
  | .function id, s => return .function (s.function? id)
  | .argument name, s => return .argument (s.parameters.argumentRef? name)
  | .constant name, s => return .constant (s.parameters.constantRef? name)
  | .resolves ref, s => return .resolves (s.parameters.resolvesArgument ref)
  | .value ref, s => return .value (s.parameters.constantValue? ref)
  | .embedded host, s => do
    let inner ← s.embedded host
    return .scenario inner
  | .nested host id, s => do
    let r ← s.nestedRef host id
    return .reference r
  | .nestedHandle host inner, s => do
    let r ← s.nestedHandleRef host inner
    return .reference r
  | .jobs predicate, s => return .jobs (s.extractJobs predicate)
  | .handles job, s => return .handles (s.jobHandles job)
  | .validate, s => do
    s.validate
    return .valid
  | .describe, s => do
    let d ← s.describe
    return .description d
  | .text style, s => do
    let text ← s.toText style
    return .text text
  | .inside host query, s => do
    let inner ← s.embedded host
    query.ask inner

inductive Step where
  | call (call : Call)
  | ask (query : Query)

namespace Step

def answer (s : Scenario) : Step → Except Failure Answer
  | .call c => do
    let (reply, _) ← c.perform s
    return .reply reply
  | .ask query => query.ask s

/-- The scenario after a step. Questions change nothing. -/
def next (s : Scenario) : Step → Scenario
  | .call c => s.after c
  | .ask _ => s

end Step

namespace Scenario

/-- The scenario after some steps. -/
def run (s : Scenario) (steps : List Step) : Scenario := steps.foldl Step.next s

/-- What some steps are answered, each one where the steps before it have led. -/
def answers : Scenario → List Step → List (Except Failure Answer)
  | _, [] => []
  | s, step :: steps => step.answer s :: (step.next s).answers steps

variable {s : Scenario}

theorem Reachable.next (h : s.Reachable) {step : Step}
    (hembedded : ∀ c, step = .call c → ∀ inner, c.embedded? = some inner → inner.Reachable) :
    (step.next s).Reachable := by
  cases step with
  | call c => exact .called h c (hembedded c rfl)
  | ask query => exact h

theorem Reachable.run_of_embedded (h : s.Reachable) {steps : List Step}
    (hembedded : ∀ c, .call c ∈ steps → ∀ inner, c.embedded? = some inner → inner.Reachable) :
    (s.run steps).Reachable := by
  induction steps generalizing s with
  | nil => exact h
  | cons step steps ih =>
      refine ih (h.next ?_) fun c hc => hembedded c (List.mem_cons_of_mem _ hc)
      rintro c rfl
      exact hembedded c List.mem_cons_self

end Scenario

section Rename

variable (ρ : Scope → Scope)

def Call.rename : Call → Call
  | .addArgument name description default => .addArgument name description default
  | .addConstant name value => .addConstant name value
  | .addFunction payload wait => .addFunction (renamePayload ρ payload) (wait.rename ρ)
  | .startJob job wait => .startJob (job.rename ρ) (wait.rename ρ)
  | .stopJobs targets wait => .stopJobs (targets.map (Handle.rename ρ)) (wait.rename ρ)
  | .startScenario inner bindings wait =>
    .startScenario (inner.rename ρ) (ParameterValue.renameEntries ρ bindings) (wait.rename ρ)
  | .stopScenario target wait => .stopScenario (target.rename ρ) (wait.rename ρ)
  | .setWait handle wait => .setWait (handle.rename ρ) (wait.rename ρ)
  | .copy scope => .copy (ρ scope)

def Reply.rename : Reply → Reply
  | .argument ref => .argument (ref.rename ρ)
  | .constant ref => .constant (ref.rename ρ)
  | .function handle => .function (handle.rename ρ)
  | .nothing => .nothing

def Query.rename : Query → Query
  | .resolves ref => .resolves (ref.rename ρ)
  | .value ref => .value (ref.rename ρ)
  | .embedded host => .embedded (host.rename ρ)
  | .nested host id => .nested (host.rename ρ) id
  | .nestedHandle host inner => .nestedHandle (host.rename ρ) (inner.rename ρ)
  | .inside host query => .inside (host.rename ρ) query.rename
  | query => query

def Answer.rename : Answer → Answer
  | .reply r => .reply (r.rename ρ)
  | .scenario s => .scenario (s.rename ρ)
  | .function f => .function (f.map (ScenarioFunction.rename ρ))
  | .argument ref => .argument (ref.map (ArgumentRef.rename ρ))
  | .constant ref => .constant (ref.map (ConstantRef.rename ρ))
  | .reference r => .reference (r.rename ρ)
  | .jobs found => .jobs (found.map (ExtractedJob.rename ρ))
  | .handles hs => .handles (hs.map (Handle.rename ρ))
  | answer => answer

def Step.rename : Step → Step
  | .call c => .call (c.rename ρ)
  | .ask query => .ask (query.rename ρ)

/-- The predicates of the question take no notice of the renaming. -/
def Query.BlindTo : Query → Prop
  | .jobs predicate => ∀ launch, predicate (launch.rename ρ) = predicate launch
  | .inside _ query => query.BlindTo
  | _ => True

/-- The step can be taken under other scopes. -/
def Step.Respects : Step → Prop
  | .call c => ∀ scope, c = .copy scope → KeepsBelow ρ scope
  | .ask query => query.BlindTo ρ

end Rename

variable {ρ : Scope → Scope} (hρ : Function.Injective ρ)

include hρ

theorem Call.perform_rename (s : Scenario) {call : Call}
    (hcopy : ∀ scope, call = .copy scope → KeepsBelow ρ scope) :
    (call.rename ρ).perform (s.rename ρ) =
      renamed ρ (Prod.map (Reply.rename ρ) (Scenario.rename ρ)) (call.perform s) := by
  cases call with
  | addArgument name description default =>
      exact renamed_bind (s.addArgument_rename name description default) fun _ => rfl
  | addConstant name value => exact renamed_bind (s.addConstant_rename name value) fun _ => rfl
  | addFunction payload wait =>
      exact renamed_bind (s.addFunction_rename hρ payload wait) fun _ => rfl
  | startJob job wait =>
      have hadd := s.addFunction_rename hρ (.startJob job) wait
      rw [renamePayload] at hadd
      exact renamed_bind hadd fun _ => rfl
  | stopJobs targets wait => exact renamed_bind (s.stopJobs_rename hρ targets wait) fun _ => rfl
  | startScenario inner bindings wait =>
      have hadd := s.addFunction_rename hρ (.startScenario inner bindings) wait
      rw [renamePayload] at hadd
      exact renamed_bind hadd fun _ => rfl
  | stopScenario target wait =>
      have hadd := s.addFunction_rename hρ (.stopScenario target.reference) wait
      rw [renamePayload] at hadd
      exact renamed_bind hadd fun _ => rfl
  | setWait handle wait => exact renamed_bind (s.setWait_rename hρ handle wait) fun _ => rfl
  | copy scope =>
      have hcopied := s.copy_rename hρ (hcopy scope rfl)
      exact congrArg (fun t => Except.ok (Reply.nothing, t)) hcopied

theorem Query.ask_rename (s : Scenario) {query : Query} (hblind : query.BlindTo ρ) :
    (query.rename ρ).ask (s.rename ρ) = renamed ρ (Answer.rename ρ) (query.ask s) := by
  induction query generalizing s with
  | itself => rfl
  | function id => exact congrArg (fun f => Except.ok (Answer.function f)) (s.function?_rename id)
  | argument name =>
      have hfound : (s.rename ρ).parameters.argumentRef? name =
          (s.parameters.argumentRef? name).map (ArgumentRef.rename ρ) := by
        rw [Scenario.rename_parameters, ParameterTable.argumentRef?, ParameterTable.argumentRef?,
          Option.map_map]
        rfl
      exact congrArg (fun ref => Except.ok (Answer.argument ref)) hfound
  | constant name =>
      have hfound : (s.rename ρ).parameters.constantRef? name =
          (s.parameters.constantRef? name).map (ConstantRef.rename ρ) := by
        rw [Scenario.rename_parameters, ParameterTable.constantRef?, ParameterTable.constantRef?,
          Option.map_map]
        rfl
      exact congrArg (fun ref => Except.ok (Answer.constant ref)) hfound
  | resolves ref =>
      simp only [rename, ask, Scenario.rename_parameters,
        ParameterTable.resolvesArgument_rename _ hρ]
      rfl
  | value ref =>
      simp only [rename, ask, Scenario.rename_parameters,
        ParameterTable.constantValue?_rename _ hρ]
      rfl
  | embedded host => exact renamed_bind (s.embedded_rename hρ host) fun _ => rfl
  | nested host id => exact renamed_bind (s.nestedRef_rename hρ host id) fun _ => rfl
  | nestedHandle host inner =>
      exact renamed_bind (s.nestedHandleRef_rename hρ host inner) fun _ => rfl
  | jobs predicate =>
      exact congrArg (fun found => Except.ok (Answer.jobs found)) (s.extractJobs_rename hρ hblind)
  | handles job =>
      exact congrArg (fun handles => Except.ok (Answer.handles handles)) (s.jobHandles_rename job)
  | validate => exact renamed_bind (s.validate_rename hρ) fun _ => rfl
  | describe => exact renamed_bind (s.describe_rename hρ) fun _ => rfl
  | text style => exact renamed_bind (s.toText_rename hρ style) fun _ => rfl
  | inside host query ih =>
      exact renamed_bind (s.embedded_rename hρ host) fun inner => ih inner hblind

namespace Step

variable (s : Scenario) {step : Step} (hstep : step.Respects ρ)

include hstep

theorem answer_rename :
    (step.rename ρ).answer (s.rename ρ) = renamed ρ (Answer.rename ρ) (step.answer s) := by
  cases step with
  | call c => exact renamed_bind (c.perform_rename hρ s hstep) fun _ => rfl
  | ask query => exact query.ask_rename hρ s hstep

theorem next_rename : (step.rename ρ).next (s.rename ρ) = (step.next s).rename ρ := by
  cases step with
  | call c =>
      simp only [rename, next, Scenario.after, c.perform_rename hρ s hstep]
      cases c.perform s <;> rfl
  | ask query => rfl

end Step

namespace Scenario

theorem run_rename (s : Scenario) {steps : List Step} (hsteps : ∀ step ∈ steps, step.Respects ρ) :
    (s.rename ρ).run (steps.map (Step.rename ρ)) = (s.run steps).rename ρ := by
  induction steps generalizing s with
  | nil => rfl
  | cons step steps ih =>
      rw [List.forall_mem_cons] at hsteps
      simp only [run, List.map_cons, List.foldl_cons, step.next_rename hρ s hsteps.1]
      exact ih (step.next s) hsteps.2

theorem answers_rename (s : Scenario) {steps : List Step}
    (hsteps : ∀ step ∈ steps, step.Respects ρ) :
    (s.rename ρ).answers (steps.map (Step.rename ρ)) =
      (s.answers steps).map (renamed ρ (Answer.rename ρ)) := by
  induction steps generalizing s with
  | nil => rfl
  | cons step steps ih =>
      rw [List.forall_mem_cons] at hsteps
      simp only [answers, List.map_cons, step.answer_rename hρ s hsteps.1,
        step.next_rename hρ s hsteps.1, ih (step.next s) hsteps.2]

end Scenario

end Orchestration
