import Orchestration.Proofs.Scenario.Tokens
import Orchestration.Proofs.Scenario.Values

namespace Orchestration

/-- The step replaces no clause. -/
def Step.KeepsClauses (step : Step) : Prop := ∀ c, step = .call c → c.KeepsClauses

section Drawing

/-- One of the tokens is what the reference needs. -/
def ValueReference.DrawnFrom (tokens : List Token) : ValueReference → Prop
  | .argument ref => .argument ref ∈ tokens
  | .constant ref => .constant ref ∈ tokens
  | .function r => ∃ token ∈ tokens, token.reference? = some r

def ParameterValue.DrawnFrom (tokens : List Token) (value : ParameterValue) : Prop :=
  ∀ r, value.Mentions r → r.DrawnFrom tokens

def WaitClause.DrawnFrom (tokens : List Token) (wait : WaitClause) : Prop :=
  ∀ r ∈ wait.references, ∃ token ∈ tokens, token.reference? = some r

/-- The tokens give the reference of a function of the scenario itself, which is of the kind. -/
structure Scenario.OwnFrom (s : Scenario) (tokens : List Token) (kind : FunctionKind)
    (r : Reference) : Prop where
  drawn : ∃ token ∈ tokens, token.reference? = some r
  own : r.host = none
  kind : ∃ f ∈ s.functions, f.id = r.id ∧ f.kind = kind

/-- What a function may be added for: a job that the registry accepts, the end of launches of the
scenario itself, or the start of another scenario with values for what it needs, for arguments that
it has, and without functions in them. -/
inductive Payload.DrawnFrom (s : Scenario) (tokens : List Token) : Payload → Prop
  | startJob {job : JobLaunch} (accepted : s.registry.check job = .ok ())
      (values : ∀ value ∈ job.values, value.DrawnFrom tokens) : DrawnFrom s tokens (.startJob job)
  | stopJobs {targets : List Reference} (own : ∀ r ∈ targets, s.OwnFrom tokens .startJob r) :
      DrawnFrom s tokens (.stopJobs targets)
  | startScenario {inner : Scenario} {bindings : Entries String ParameterValue}
      (other : inner.scope ≠ s.scope)
      (complete : inner.parameters.Complete (Entries.keys bindings))
      (declared : ∀ b ∈ bindings, b.1 ∈ inner.parameters.arguments.map Argument.name)
      (functionFree : ∀ b ∈ bindings, ∀ r, ¬ b.2.Mentions (.function r))
      (values : ∀ b ∈ bindings, b.2.DrawnFrom tokens) :
      DrawnFrom s tokens (.startScenario inner bindings)
  | stopScenario {target : Reference} (own : s.OwnFrom tokens .startScenario target) :
      DrawnFrom s tokens (.stopScenario target)

end Drawing

namespace Scenario

variable {s : Scenario} {tokens : List Token}

section Accepting

/-- The token names a function that the scenario has, or one inside of it. -/
theorem Resolved.resolves {token : Token} (h : s.Resolved token) {r : Reference}
    (hr : token.reference? = some r) : s.Resolves r := by
  obtain ⟨m, hm, -⟩ := h
  cases token with
  | handle handle =>
      cases hr
      obtain ⟨f, hf, -⟩ := resolve_meaning_eq_some_iff.mp hm
      exact ⟨f, hf⟩
  | reference r =>
      cases hr
      obtain ⟨f, hf, -⟩ := resolve_meaning_eq_some_iff.mp hm
      exact ⟨f, hf⟩
  | argument ref | constant ref => cases hr

variable (htokens : ∀ token ∈ tokens, s.Resolved token)

include htokens

theorem holds_of_drawnFrom {r : ValueReference} (hr : r.DrawnFrom tokens) : s.Holds r := by
  cases r with
  | argument ref =>
      obtain ⟨m, hm, -⟩ := htokens _ hr
      simp only [Token.meaning?, Option.ite_none_right_eq_some] at hm
      have hheld : s.checkReference (.argument ref) = .ok () := by
        simp [checkReference, hm.1]
      exact checkReference_eq_ok_iff.mp hheld
  | constant ref =>
      obtain ⟨m, hm, -⟩ := htokens _ hr
      obtain ⟨value, hvalue, -⟩ := Option.map_eq_some_iff.mp hm
      have hheld : s.checkReference (.constant ref) = .ok () := by
        simp [checkReference, hvalue]
      exact checkReference_eq_ok_iff.mp hheld
  | function r =>
      obtain ⟨token, htoken, hr⟩ := hr
      exact (htokens token htoken).resolves hr

theorem holdsAll_of_drawnFrom {value : ParameterValue} (h : value.DrawnFrom tokens) :
    s.HoldsAll value := by
  intro r hr
  exact holds_of_drawnFrom htokens (h r (ParameterValue.mentions_of_mem_references value hr))

theorem resolves_of_drawnFrom {wait : WaitClause} (h : wait.DrawnFrom tokens) :
    ∀ r ∈ wait.references, s.Resolves r := by
  intro r hr
  obtain ⟨token, htoken, href⟩ := h r hr
  exact (htokens token htoken).resolves href

theorem namesOwn_of_ownFrom (hs : s.Coherent) {kind : FunctionKind} {r : Reference}
    (h : s.OwnFrom tokens kind r) : s.NamesOwn kind r := by
  obtain ⟨⟨token, htoken, href⟩, hhost, f, hf, hid, hkind⟩ := h
  obtain ⟨g, hg⟩ := (htokens token htoken).resolves href
  obtain ⟨scope, host, id⟩ := r
  obtain rfl : host = none := hhost
  obtain rfl : g = f := by
    have hfound := function?_of_mem hs.ids hf
    rw [hid] at hfound
    exact Option.some.inj (hg.2.symm.trans hfound)
  exact ⟨rfl, g, hg, hkind⟩

theorem admits_of_drawnFrom (hs : s.Coherent) {payload : Payload}
    (h : payload.DrawnFrom s tokens) : s.Admits payload := by
  cases h with
  | startJob accepted values =>
      exact ⟨accepted, fun v hv => holdsAll_of_drawnFrom htokens (values v hv)⟩
  | stopJobs own => exact fun r hr => namesOwn_of_ownFrom htokens hs (own r hr)
  | startScenario other complete declared functionFree values =>
      refine ⟨other, ?_, ?_, ?_, fun b hb => holdsAll_of_drawnFrom htokens (values b hb)⟩
      · intro a ha
        obtain ⟨ha, hrequired⟩ := List.mem_filter.mp ha
        exact complete a ha (by simpa [Argument.isRequired] using hrequired)
      · exact fun b hb => ParameterTable.argument?_isSome_iff.mpr (declared b hb)
      · intro b hb r hr
        cases r with
        | function r =>
            exact absurd (ParameterValue.mentions_of_mem_references b.2 hr) (functionFree b hb r)
        | argument _ | constant _ => rfl
  | stopScenario own => exact namesOwn_of_ownFrom htokens hs own

theorem performs_of_drawnFrom (hs : s.Intact) {c : Call} {payload : Payload} {wait : WaitClause}
    (hadded : c.added? = some (payload, wait)) (hwait : wait.DrawnFrom tokens)
    (hpayload : payload.DrawnFrom s tokens) :
    c.Performs s (.function ⟨s.scope, s.functions.length, payload.kind⟩)
      (s.withFunction payload wait) := by
  rw [← hs.next]
  exact .function hadded (resolves_of_drawnFrom htokens hwait)
    (admits_of_drawnFrom htokens hs.toCoherent hpayload)

end Accepting

/-- Every function waits only for functions with smaller ids, a function inside of an embedded
scenario counting as the one that starts the scenario. -/
def Ordered (s : Scenario) : Prop :=
  ∀ f ∈ s.functions, ∀ r ∈ f.wait.references, r.outerId < f.id

/-- Built by calls none of which replaces a clause. How the embedded scenarios are built is left
open. -/
inductive Forward : Scenario → Prop
  | created (scope : Scope) (name description : String) (registry : JobRegistry) :
      Forward (.create scope name description registry)
  | called {s : Scenario} (built : Forward s) (call : Call) (keeps : call.KeepsClauses)
      (embedded : ∀ inner, call.embedded? = some inner → inner.Reachable) :
      Forward (s.after call)

namespace Forward

theorem reachable (h : s.Forward) : s.Reachable := by
  induction h with
  | created scope name description registry => exact .created scope name description registry
  | called _ call _ embedded ih => exact ih.called call embedded

theorem run (h : s.Forward) {steps : List Step} (hsteps : ∀ step ∈ steps, step.KeepsClauses)
    (hembedded : ∀ c, .call c ∈ steps → ∀ inner, c.embedded? = some inner → inner.Reachable) :
    (s.run steps).Forward := by
  induction steps generalizing s with
  | nil => exact h
  | cons step steps ih =>
      rw [List.forall_mem_cons] at hsteps
      refine ih ?_ hsteps.2 fun c hc => hembedded c (List.mem_cons_of_mem _ hc)
      cases step with
      | call c => exact h.called c (hsteps.1 c rfl) (hembedded c List.mem_cons_self)
      | ask query => exact h

end Forward

/-- One call that replaces no clause keeps the order. -/
theorem Ordered.performs (h : s.Ordered) (hs : s.Intact) {c : Call} (hc : c.KeepsClauses)
    {reply : Reply} {t : Scenario} (hcall : c.Performs s reply t) : t.Ordered := by
  cases hcall with
  | argument _ | constant _ => exact h
  | function _ hwait _ =>
      intro f hf r hr
      rcases List.mem_append.mp hf with hf | hf
      · exact h f hf r hr
      · obtain rfl := List.mem_singleton.mp hf
        show r.outerId < s.ids.next
        rw [hs.next]
        exact hs.outerId_lt (hwait r hr)
  | @rewired handle wait _ _ _ _ => exact absurd rfl (hc handle wait)
  | copied scope =>
      intro f hf r hr
      rw [copy_functions] at hf
      obtain ⟨g, hg, rfl⟩ := List.mem_map.mp hf
      rw [ScenarioFunction.copy, WaitClause.references_rescope] at hr
      obtain ⟨original, horiginal, rfl⟩ := List.mem_map.mp hr
      rw [Reference.rescope_outerId]
      exact h g hg original horiginal

theorem Forward.ordered (h : s.Forward) : s.Ordered := by
  induction h with
  | created scope name description registry =>
      intro f hf
      cases hf
  | @called s built call keeps _ ih =>
      rcases s.after_eq_or call with heq | ⟨reply, hcall⟩
      · rw [heq]
        exact ih
      · exact ih.performs built.reachable.everywhere_intact.here keeps hcall

/-- As long as no clause is replaced, a function that is asked for in terms of what was handed out
before is always added, under the next id, and every function waits for earlier ones only. -/
theorem Forward.accepts_what_it_gave (h : s.Forward) {steps : List Step}
    (hplace : ∀ step ∈ steps, step.InPlace) (hkeeps : ∀ step ∈ steps, step.KeepsClauses)
    (hembedded : ∀ c, .call c ∈ steps → ∀ inner, c.embedded? = some inner → inner.Reachable) :
    (s.run steps).Ordered ∧
      ∀ (c : Call) (payload : Payload) (wait : WaitClause), c.added? = some (payload, wait) →
        wait.DrawnFrom (s.obtained steps) →
        payload.DrawnFrom (s.run steps) (s.obtained steps) →
        c.perform (s.run steps) =
          .ok (.function ⟨(s.run steps).scope, (s.run steps).functions.length, payload.kind⟩,
            (s.run steps).withFunction payload wait) := by
  have hforward := h.run hkeeps hembedded
  refine ⟨hforward.ordered, ?_⟩
  intro c payload wait hadded hwait hpayload
  have htokens : ∀ token ∈ s.obtained steps, (s.run steps).Resolved token := fun _ htoken =>
    h.reachable.resolved_of_mem_obtained hplace hembedded htoken
  exact Call.perform_eq_ok_iff.mpr
    (performs_of_drawnFrom htokens hforward.reachable.everywhere_intact.here hadded hwait hpayload)

section Sample

/-- Starts the worker, and asks for its job. -/
def starting : List Step :=
  [.call (.startScenario worker [("size", .literal (.ofNat 5))] {}),
    .ask (.nested ⟨.root 2, 0, .startScenario⟩ 0)]

/-- A launch that waits for the job of the worker is added once the worker is started. -/
theorem starting_accepts_launch :
    (Call.startJob { job := "fping", entity := "client" }
        { launched := [.nested (.root 2) 0 0] }).perform
      ((create (.root 2) "starter" "").run starting) =
      .ok (.function ⟨.root 2, 1, .startJob⟩,
        ((create (.root 2) "starter" "").run starting).withFunction
          (.startJob { job := "fping", entity := "client" })
          { launched := [.nested (.root 2) 0 0] }) := by
  have hplace : ∀ step ∈ starting, step.InPlace := by
    simp [starting, Step.InPlace, Call.InPlace]
  have hkeeps : ∀ step ∈ starting, step.KeepsClauses := by
    simp [starting, Step.KeepsClauses, Call.KeepsClauses]
  have hembedded : ∀ c, .call c ∈ starting → ∀ inner, c.embedded? = some inner →
      inner.Reachable := by
    intro c hc inner hinner
    obtain rfl : c = .startScenario worker [("size", .literal (.ofNat 5))] {} := by
      simpa [starting] using hc
    obtain rfl := Option.some.inj hinner
    exact worker_reachable
  obtain ⟨-, haccepts⟩ := (Forward.created (.root 2) "starter" "" .permissive).accepts_what_it_gave
    hplace hkeeps hembedded
  refine haccepts (.startJob { job := "fping", entity := "client" }
    { launched := [.nested (.root 2) 0 0] }) _ _ rfl ?_ (.startJob rfl ?_)
  · intro r hr
    obtain rfl : r = .nested (.root 2) 0 0 := by simpa [WaitClause.references] using hr
    exact ⟨.reference (.nested (.root 2) 0 0), List.mem_append_right _ List.mem_cons_self, rfl⟩
  · simp [JobLaunch.values]

end Sample

end Scenario

end Orchestration
