import Orchestration.Proofs.Building
import Orchestration.Proofs.Renaming.Steps
import Orchestration.Proofs.Scenario.Calls
import Orchestration.Proofs.Scenario.Extraction

namespace Orchestration

/-- Something that a scenario hands out, to be named by it. -/
inductive Token where
  | handle (h : Handle)
  | reference (r : Reference)
  | argument (ref : ArgumentRef)
  | constant (ref : ConstantRef)

/-- What a token stands for. -/
inductive Meaning where
  | function (id : FunctionId) (kind : FunctionKind) (payload : Payload)
  | argument (a : Argument)
  | constant (value : Json)

def ScenarioFunction.meaning (f : ScenarioFunction) : Meaning := .function f.id f.kind f.payload

namespace Token

/-- What the token stands for in a scenario, if the scenario resolves it. -/
def meaning? (s : Scenario) : Token → Option Meaning
  | .handle h => (s.resolve h.reference).toOption.map ScenarioFunction.meaning
  | .reference r => (s.resolve r).toOption.map ScenarioFunction.meaning
  | .argument ref =>
    if s.parameters.resolvesArgument ref then
      (s.parameters.argument? ref.name).map .argument
    else none
  | .constant ref => (s.parameters.constantValue? ref).map .constant

/-- The token says of the meaning what it can say of it. -/
def Fits : Token → Meaning → Prop
  | .handle h, .function id kind _ => id = h.id ∧ kind = h.kind
  | .reference r, .function id _ _ => id = r.id
  | .argument ref, .argument a => a.name = ref.name
  | .constant _, .constant _ => True
  | _, _ => False

/-- The reference of a function that the token is. -/
def reference? : Token → Option Reference
  | .handle h => some h.reference
  | .reference r => some r
  | .argument _ | .constant _ => none

end Token

def Reply.tokens : Reply → List Token
  | .argument ref => [.argument ref]
  | .constant ref => [.constant ref]
  | .function handle => [.handle handle]
  | .nothing => []

def Answer.tokens : Answer → List Token
  | .reply r => r.tokens
  | .argument ref => ref.toList.map .argument
  | .constant ref => ref.toList.map .constant
  | .reference r => [.reference r]
  | .jobs found => found.map fun j => .reference j.reference
  | .handles hs => hs.map .handle
  | _ => []

/-- What a step hands out. What is answered from inside of an embedded scenario was handed out by
that one. -/
def Step.tokens (s : Scenario) (step : Step) : List Token :=
  match step with
  | .ask (.inside _ _) => []
  | step =>
    match step.answer s with
    | .ok answer => answer.tokens
    | .error _ => []

/-- What a run hands out. -/
def Scenario.obtained : Scenario → List Step → List Token
  | _, [] => []
  | s, step :: steps => step.tokens s ++ (step.next s).obtained steps

def Step.InPlace (step : Step) : Prop := ∀ c, step = .call c → c.InPlace

namespace Scenario

variable {s t : Scenario}

section Growing

theorem Intact.after_step (hs : s.Intact) (step : Step) : (step.next s).Intact := by
  cases step with
  | call c => exact hs.after c
  | ask query => exact hs

theorem Intact.extends_next (hs : s.Intact) {step : Step} (hstep : step.InPlace) :
    s.Extends (step.next s) := by
  cases step with
  | call c => exact hs.extends_after (hstep c rfl)
  | ask query => exact .refl s

theorem Intact.extends_run (hs : s.Intact) {steps : List Step}
    (hsteps : ∀ step ∈ steps, step.InPlace) : s.Extends (s.run steps) := by
  induction steps generalizing s with
  | nil => exact .refl s
  | cons step steps ih =>
      rw [List.forall_mem_cons] at hsteps
      exact (hs.extends_next hsteps.1).trans (ih (hs.after_step step) hsteps.2)

end Growing

theorem meaning_eq {f g : ScenarioFunction} (hid : g.id = f.id) (hpayload : g.payload = f.payload) :
    g.meaning = f.meaning := by
  simp only [ScenarioFunction.meaning, ScenarioFunction.kind, hid, hpayload]

theorem Names.id_eq {r : Reference} {f : ScenarioFunction} (h : s.Names r f) : f.id = r.id := by
  obtain ⟨scope, host, id⟩ := r
  cases host with
  | none => exact (mem_of_function? h.2).2
  | some host =>
      obtain ⟨-, g, inner, bindings, -, -, hf⟩ := h
      exact (mem_of_function? hf).2

theorem resolve_meaning_eq_some_iff {r : Reference} {m : Meaning} :
    (s.resolve r).toOption.map ScenarioFunction.meaning = some m ↔
      ∃ f, s.Names r f ∧ f.meaning = m := by
  simp only [← resolve_eq_ok_iff]
  cases s.resolve r <;> simp [Except.toOption]

/-- A token means the same wherever there is all that there was. -/
theorem Extends.meaning? (h : s.Extends t) {token : Token} {m : Meaning}
    (hm : token.meaning? s = some m) : token.meaning? t = some m := by
  have hreference : ∀ r : Reference,
      (s.resolve r).toOption.map ScenarioFunction.meaning = some m →
        (t.resolve r).toOption.map ScenarioFunction.meaning = some m := by
    intro r hr
    obtain ⟨f, hf, rfl⟩ := resolve_meaning_eq_some_iff.mp hr
    obtain ⟨g, hg, hpayload⟩ := h.names hf
    have hid : g.id = f.id := hg.id_eq.trans hf.id_eq.symm
    exact resolve_meaning_eq_some_iff.mpr ⟨g, hg, meaning_eq hid hpayload⟩
  cases token with
  | handle handle => exact hreference handle.reference hm
  | reference r => exact hreference r hm
  | argument ref =>
      simp only [Token.meaning?, ParameterTable.resolvesArgument, h.table,
        Option.ite_none_right_eq_some, Option.map_eq_some_iff, Bool.and_eq_true] at hm ⊢
      obtain ⟨⟨hscope, -⟩, a, ha, rfl⟩ := hm
      exact ⟨⟨hscope, by rw [h.argument? ha]; rfl⟩, a, h.argument? ha, rfl⟩
  | constant ref =>
      obtain ⟨value, hvalue, rfl⟩ := Option.map_eq_some_iff.mp hm
      simp only [Token.meaning?, h.constantValue? hvalue, Option.map_some]

/-- The scenario resolves the token, to something that the token fits. -/
def Resolved (s : Scenario) (token : Token) : Prop := ∃ m, token.meaning? s = some m ∧ token.Fits m

theorem Extends.resolved (h : s.Extends t) {token : Token} (htoken : s.Resolved token) :
    t.Resolved token := by
  obtain ⟨m, hm, hfits⟩ := htoken
  exact ⟨m, h.meaning? hm, hfits⟩

section Handing

theorem resolved_handle {h : Handle} (hown : s.NamesOwn h.kind h.reference) :
    s.Resolved (.handle h) := by
  obtain ⟨-, f, hf, hkind⟩ := hown
  exact ⟨f.meaning, resolve_meaning_eq_some_iff.mpr ⟨f, hf, rfl⟩, hf.id_eq, hkind⟩

theorem resolved_reference {r : Reference} (hr : s.Resolves r) : s.Resolved (.reference r) := by
  obtain ⟨f, hf⟩ := hr
  exact ⟨f.meaning, resolve_meaning_eq_some_iff.mpr ⟨f, hf, rfl⟩, hf.id_eq⟩

theorem resolved_argument {ref : ArgumentRef} (hscope : ref.scope = s.parameters.scope)
    (hname : ref.name ∈ s.parameters.arguments.map Argument.name) :
    s.Resolved (.argument ref) := by
  rw [← ParameterTable.argument?_isSome_iff] at hname
  obtain ⟨a, ha⟩ := Option.isSome_iff_exists.mp hname
  refine ⟨.argument a, ?_, by simpa [Token.Fits] using List.find?_some ha⟩
  simp [Token.meaning?, ParameterTable.resolvesArgument, hscope, ha]

theorem resolved_constant {ref : ConstantRef} (hscope : ref.scope = s.parameters.scope)
    (hname : ref.name ∈ s.parameters.constants.map Constant.name) :
    s.Resolved (.constant ref) := by
  rw [← ParameterTable.constant?_isSome_iff] at hname
  obtain ⟨c, -, -, hvalue⟩ := ParameterTable.constantValue?_of_isSome hscope hname
  exact ⟨.constant c.value, by simp [Token.meaning?, hvalue], trivial⟩

theorem namesOwn_of_mem_jobHandles (hs : s.Intact) {name : String} {h : Handle}
    (hh : h ∈ s.jobHandles name) : s.NamesOwn h.kind h.reference := by
  obtain ⟨f, hf, hjob⟩ := List.mem_filterMap.mp hh
  have hnames := hs.namesOwn hf
  obtain ⟨id, payload, wait⟩ := f
  cases payload with
  | startJob launch =>
      simp only [ScenarioFunction.job?, Payload.job?] at hjob
      split at hjob
      next =>
        obtain rfl := Option.some.inj hjob
        exact hnames
      next => cases hjob
  | stopJobs _ | startScenario _ _ | stopScenario _ =>
      simp [ScenarioFunction.job?, Payload.job?] at hjob

theorem resolves_of_nestedRef {host : Handle} {id : FunctionId} {r : Reference}
    (h : s.nestedRef host id = .ok r) : s.Resolves r := by
  obtain ⟨-, h⟩ := Outcome.seq_eq_ok_iff.mp h
  obtain ⟨hr, heq⟩ := resolve_seq_eq_ok_iff.mp h
  exact Outcome.pure_eq_ok_iff.mp heq ▸ hr

theorem resolves_of_nestedHandleRef {host inner : Handle} {r : Reference}
    (h : s.nestedHandleRef host inner = .ok r) : s.Resolves r := by
  obtain ⟨embedded, -, h⟩ := Outcome.bind_eq_ok_iff.mp h
  exact resolves_of_nestedRef (Outcome.guard_seq_eq_ok_iff.mp h).2

theorem Intact.resolved_of_reply (hs : s.Intact) {c : Call} {reply : Reply}
    (hcall : c.Performs s reply t) {token : Token} (htoken : token ∈ reply.tokens) :
    t.Resolved token := by
  cases hcall with
  | argument _ =>
      obtain rfl := List.mem_singleton.mp htoken
      exact resolved_argument rfl (by simp [Scenario.withArgument])
  | constant _ =>
      obtain rfl := List.mem_singleton.mp htoken
      exact resolved_constant rfl (by simp [Scenario.withConstant])
  | function _ hwait hadmits =>
      obtain rfl := List.mem_singleton.mp htoken
      exact resolved_handle (namesOwn_withFunction (hs.withFunction hwait hadmits))
  | rewired _ _ _ _ | copied _ => cases htoken

theorem Everywhere.resolved_of_answer (hs : s.Everywhere Intact) {query : Query} {answer : Answer}
    (hown : ∀ host inner, query ≠ .inside host inner) (hask : query.ask s = .ok answer)
    {token : Token} (htoken : token ∈ answer.tokens) : s.Resolved token := by
  have hcoherent : s.Everywhere Coherent := hs.coherent
  cases query with
  | argument name =>
      cases hask
      obtain ⟨ref, href, rfl⟩ := List.mem_map.mp htoken
      obtain ⟨a, ha, rfl⟩ := Option.map_eq_some_iff.mp (Option.mem_toList.mp href)
      exact resolved_argument rfl (List.mem_map_of_mem (List.mem_of_find?_eq_some ha))
  | constant name =>
      cases hask
      obtain ⟨ref, href, rfl⟩ := List.mem_map.mp htoken
      obtain ⟨c, hc, rfl⟩ := Option.map_eq_some_iff.mp (Option.mem_toList.mp href)
      exact resolved_constant rfl (List.mem_map_of_mem (List.mem_of_find?_eq_some hc))
  | nested host id =>
      obtain ⟨r, hr, heq⟩ := Outcome.bind_eq_ok_iff.mp hask
      cases heq
      obtain rfl := List.mem_singleton.mp htoken
      exact resolved_reference (resolves_of_nestedRef hr)
  | nestedHandle host inner =>
      obtain ⟨r, hr, heq⟩ := Outcome.bind_eq_ok_iff.mp hask
      cases heq
      obtain rfl := List.mem_singleton.mp htoken
      exact resolved_reference (resolves_of_nestedHandleRef hr)
  | jobs predicate =>
      cases hask
      obtain ⟨j, hj, rfl⟩ := List.mem_map.mp htoken
      exact resolved_reference (hcoherent.resolves_of_mem_extractJobs hj)
  | handles job =>
      cases hask
      obtain ⟨h, hh, rfl⟩ := List.mem_map.mp htoken
      exact resolved_handle (namesOwn_of_mem_jobHandles hs.here hh)
  | inside host inner => exact absurd rfl (hown host inner)
  | itself | function _ | resolves _ | value _ =>
      cases hask
      cases htoken
  | embedded _ | validate | describe | text _ =>
      obtain ⟨_, -, heq⟩ := Outcome.bind_eq_ok_iff.mp hask
      cases heq
      cases htoken

/-- What a step hands out is resolved when it is handed out. -/
theorem Everywhere.resolved_of_mem_tokens (hs : s.Everywhere Intact) {step : Step} {token : Token}
    (htoken : token ∈ step.tokens s) : (step.next s).Resolved token := by
  unfold Step.tokens at htoken
  split at htoken
  next => cases htoken
  next hown =>
    split at htoken
    next answer hanswer =>
      cases step with
      | call c =>
          obtain ⟨⟨reply, t⟩, hcall, heq⟩ := Outcome.bind_eq_ok_iff.mp hanswer
          cases heq
          rw [Step.next, after, hcall]
          exact hs.here.resolved_of_reply (Call.perform_eq_ok_iff.mp hcall) htoken
      | ask query =>
          refine hs.resolved_of_answer ?_ hanswer htoken
          rintro host inner rfl
          exact hown host inner rfl
    next => cases htoken

end Handing

/-- Whatever a run has handed out is resolved at its end. -/
theorem Reachable.resolved_of_mem_obtained (hs : s.Reachable) {steps : List Step}
    (hsteps : ∀ step ∈ steps, step.InPlace)
    (hembedded : ∀ c, .call c ∈ steps → ∀ inner, c.embedded? = some inner → inner.Reachable)
    {token : Token} (htoken : token ∈ s.obtained steps) : (s.run steps).Resolved token := by
  induction steps generalizing s with
  | nil => cases htoken
  | cons step steps ih =>
      rw [List.forall_mem_cons] at hsteps
      rcases List.mem_append.mp htoken with htoken | htoken
      · have hnow := hs.everywhere_intact.resolved_of_mem_tokens htoken
        exact ((hs.everywhere_intact.here.after_step step).extends_run hsteps.2).resolved hnow
      · refine ih (hs.next ?_) hsteps.2 (fun c hc => hembedded c (List.mem_cons_of_mem _ hc)) htoken
        rintro c rfl
        exact hembedded c List.mem_cons_self

end Scenario

end Orchestration
