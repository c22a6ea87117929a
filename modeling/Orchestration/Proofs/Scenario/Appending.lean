import Orchestration.Proofs.Scenario.Outline
import Orchestration.Proofs.Scenario.Tokens

namespace Orchestration

section Written

variable {s t : Scenario} {argument : ArgumentRef → Except Failure Json}

namespace ParameterValue

mutual

theorem resolveWith_of_extends (h : s.Extends t) (value : ParameterValue)
    (hheld : ∀ r ∈ value.references, s.Holds r) :
    value.resolveWith t argument = value.resolveWith s argument := by
  cases value with
  | literal value => simp only [resolveWith]
  | argument ref => simp only [resolveWith]
  | constant ref =>
      obtain ⟨hscope, hname⟩ := hheld (.constant ref) (by simp [references])
      obtain ⟨c, -, -, hvalue⟩ := ParameterTable.constantValue?_of_isSome hscope hname
      simp only [resolveWith, hvalue, h.constantValue? hvalue]
  | function ref => simp only [resolveWith]
  | list items => simp only [resolveWith, resolveItems_of_extends h items hheld]
  | map entries => simp only [resolveWith, resolveEntries_of_extends h entries hheld]

theorem resolveItems_of_extends (h : s.Extends t) (items : List ParameterValue)
    (hheld : ∀ r ∈ itemReferences items, s.Holds r) :
    resolveItems t argument items = resolveItems s argument items := by
  cases items with
  | nil => simp only [resolveItems]
  | cons item items =>
      rw [itemReferences, List.forall_mem_append] at hheld
      simp only [resolveItems, resolveWith_of_extends h item hheld.1,
        resolveItems_of_extends h items hheld.2]

theorem resolveEntries_of_extends (h : s.Extends t) (entries : List (String × ParameterValue))
    (hheld : ∀ r ∈ entryReferences entries, s.Holds r) :
    resolveEntries t argument entries = resolveEntries s argument entries := by
  cases entries with
  | nil => simp only [resolveEntries]
  | cons entry entries =>
      obtain ⟨key, value⟩ := entry
      rw [entryReferences, List.forall_mem_append] at hheld
      simp only [resolveEntries, resolveWith_of_extends h value hheld.1,
        resolveEntries_of_extends h entries hheld.2]

end

end ParameterValue

theorem Scenario.resolveValues_of_extends (h : s.Extends t)
    {entries : Entries String ParameterValue}
    (hheld : ∀ entry ∈ entries, s.HoldsAll entry.2) :
    t.resolveValues entries = s.resolveValues entries := by
  apply ParameterValue.resolveEntries_of_extends h
  intro r hr
  obtain ⟨entry, hentry, hmem⟩ := ParameterValue.mem_entryReferences.mp hr
  exact hheld entry hentry r hmem

/-- The record of a payload does not change, for what it is written with is still there. -/
theorem outlinePayload_of_extends (h : s.Extends t) {payload : Payload}
    (hadmits : s.Admits payload) :
    outlinePayload t payload = outlinePayload s payload := by
  cases payload with
  | startJob job =>
      have hheld : ∀ entry ∈ job.arguments, s.HoldsAll entry.2 := fun entry hentry =>
        hadmits.2 entry.2 (List.mem_append_left _ (List.mem_map_of_mem hentry))
      simp only [outlinePayload, Scenario.resolveValues_of_extends h hheld]
  | stopJobs targets => simp only [outlinePayload]
  | startScenario inner bindings =>
      simp only [outlinePayload, Scenario.resolveValues_of_extends h hadmits.held]
  | stopScenario target => simp only [outlinePayload]

end Written

/-- The records are of the same function, and of the same clause unless the function is the given
one. -/
structure FunctionRecord.AlikeUpTo (id : FunctionId) (r r' : FunctionRecord) : Prop where
  id_eq : r'.id = r.id
  kind : r'.kind = r.kind
  payload : r'.payload = r.payload
  clause : r.id ≠ id → r' = r

namespace Description

/-- The second description has whatever stands in the first one, followed by what was added. -/
structure Grows (d d' : Description) : Prop where
  name : d'.name = d.name
  description : d'.description = d.description
  arguments : d.arguments <+: d'.arguments
  constants : d.constants <+: d'.constants
  functions : d.functions <+: d'.functions

/-- The descriptions differ at most in what one function waits for. -/
structure Rewires (id : FunctionId) (d d' : Description) : Prop where
  name : d'.name = d.name
  description : d'.description = d.description
  arguments : d'.arguments = d.arguments
  constants : d'.constants = d.constants
  functions : List.Forall₂ (FunctionRecord.AlikeUpTo id) d.functions d'.functions

theorem Grows.refl (d : Description) : d.Grows d :=
  ⟨rfl, rfl, List.prefix_refl _, List.prefix_refl _, List.prefix_refl _⟩

theorem Rewires.refl (id : FunctionId) (d : Description) : d.Rewires id d :=
  ⟨rfl, rfl, rfl, rfl, List.forall₂_same.mpr fun _ _ => ⟨rfl, rfl, rfl, fun _ => rfl⟩⟩

end Description

theorem FunctionOutlined.alike {s t : Scenario} (h : s.Extends t) {f g : ScenarioFunction}
    (hadmits : s.Admits f.payload) (hid : g.id = f.id) (hpayload : g.payload = f.payload)
    {r r' : FunctionRecord} (hr : FunctionOutlined s f r) (hr' : FunctionOutlined t g r') :
    r'.id = r.id ∧ r'.kind = r.kind ∧ r'.payload = r.payload := by
  have hkind : g.kind = f.kind := congrArg Payload.kind hpayload
  refine ⟨by rw [hr'.id, hid, hr.id], by rw [hr'.kind, hkind, hr.kind], ?_⟩
  have hrecord := outlinePayload_eq_ok_iff.mpr hr.payload
  have hrecord' := outlinePayload_eq_ok_iff.mpr hr'.payload
  rw [hpayload, outlinePayload_of_extends h hadmits, hrecord] at hrecord'
  exact (Except.ok.inj hrecord').symm

theorem FunctionOutlined.eq_of_extends {s t : Scenario} (h : s.Extends t) {f : ScenarioFunction}
    (hadmits : s.Admits f.payload) {r r' : FunctionRecord} (hr : FunctionOutlined s f r)
    (hr' : FunctionOutlined t f r') : r' = r := by
  obtain ⟨hid, hkind, hpayload⟩ := hr.alike h hadmits rfl rfl hr'
  obtain ⟨-, -, -, hfinished, hlaunched, hdelay⟩ := hr
  obtain ⟨-, -, -, hfinished', hlaunched', hdelay'⟩ := hr'
  cases r
  cases r'
  simp_all

theorem forall₂_common {α β γ : Type} {R : α → β → Prop} {S : α → γ → Prop} {T : β → γ → Prop}
    {xs : List α} {ys : List β} {zs : List γ} (h : List.Forall₂ R xs ys) (k : List.Forall₂ S xs zs)
    (hT : ∀ x ∈ xs, ∀ y z, R x y → S x z → T y z) : List.Forall₂ T ys zs := by
  induction h generalizing zs with
  | nil =>
      cases k
      exact .nil
  | cons hxy _ ih =>
      obtain _ | ⟨hxz, hrest⟩ := k
      rw [List.forall_mem_cons] at hT
      exact .cons (hT.1 _ _ hxy hxz) (ih hrest hT.2)

namespace Scenario

variable {s t : Scenario} {d d' : Description}

theorem functions_prefix_of_extends (h : s.Extends t) (hs : s.Coherent)
    (hfunctions : s.functions <+: t.functions) (hd : Outlined s d) (hd' : Outlined t d') :
    d.functions <+: d'.functions := by
  obtain ⟨added, hadded⟩ := hfunctions
  have hold : List.Forall₂ (FunctionOutlined t) s.functions
      (d'.functions.take s.functions.length) := by
    apply List.Forall₂.flip
    apply List.forall₂_take_append
    rw [hadded]
    exact hd'.functions.flip
  have heq : List.Forall₂ (fun r r' => r = r') d.functions
      (d'.functions.take s.functions.length) :=
    forall₂_common hd.functions hold fun f hf r r' hr hr' =>
      (hr.eq_of_extends h (hs.payloads f hf) hr').symm
  rw [List.forall₂_eq_eq_eq] at heq
  rw [heq]
  exact List.take_prefix _ _

/-- What a call that keeps all clauses makes of the description. -/
theorem grows_of_extends (h : s.Extends t) (hs : s.Coherent) (hname : t.name = s.name)
    (hdescription : t.description = s.description) (hfunctions : s.functions <+: t.functions)
    (hd : Outlined s d) (hd' : Outlined t d') : d.Grows d' where
  name := by rw [hd'.name, hname, hd.name]
  description := by rw [hd'.description, hdescription, hd.description]
  arguments := by
    rw [hd.arguments, hd'.arguments]
    exact h.arguments
  constants := by
    rw [hd.constants, hd'.constants]
    exact h.constants
  functions := functions_prefix_of_extends h hs hfunctions hd hd'

theorem rewires_of_rewired (hs : s.Coherent) {id : FunctionId} {wait : WaitClause}
    (hd : Outlined s d) (hd' : Outlined (s.rewired id wait) d') : d.Rewires id d' where
  name := by rw [hd'.name, hd.name, rewired]
  description := by rw [hd'.description, hd.description, rewired]
  arguments := by rw [hd'.arguments, hd.arguments, rewired]
  constants := by rw [hd'.constants, hd.constants, rewired]
  functions := by
    have hextends := extends_rewired s id wait
    refine forall₂_common hd.functions (List.forall₂_map_left_iff.mp hd'.functions) ?_
    intro f hf r r' hr hr'
    have hadmits := hs.payloads f hf
    by_cases hid : f.id = id
    · rw [if_pos hid] at hr'
      obtain ⟨hid', hkind, hpayload⟩ :=
        hr.alike (g := { f with wait := wait }) hextends hadmits rfl rfl hr'
      exact ⟨hid', hkind, hpayload, fun hne => absurd (hr.id.trans hid) hne⟩
    · rw [if_neg hid] at hr'
      obtain rfl := hr.eq_of_extends hextends hadmits hr'
      exact ⟨rfl, rfl, rfl, fun _ => rfl⟩

/-- What one call makes of the description. -/
theorem describe_of_performs (hs : s.Intact) {c : Call} {reply : Reply} (hc : c.InPlace)
    (hcall : c.Performs s reply t) (hd : Outlined s d) (hd' : Outlined t d') :
    (c.KeepsClauses → d.Grows d') ∧
      ∀ handle wait, c = .setWait handle wait → d.Rewires handle.id d' := by
  have hcoherent := hs.toCoherent
  have hextends := hs.extends_of_performs hc hcall
  cases hcall with
  | argument _ | constant _ =>
      refine ⟨fun _ => ?_, by simp⟩
      exact grows_of_extends hextends hcoherent rfl rfl (List.prefix_refl _) hd hd'
  | function hadded _ _ =>
      refine ⟨fun _ => ?_, ?_⟩
      · exact grows_of_extends hextends hcoherent rfl rfl (List.prefix_append _ _) hd hd'
      · rintro handle wait rfl
        cases hadded
  | @rewired handle wait _ _ _ _ =>
      refine ⟨fun hkeeps => absurd rfl (hkeeps handle wait), ?_⟩
      rintro _ _ ⟨⟩
      exact rewires_of_rewired hcoherent hd hd'
  | copied scope => exact absurd rfl (hc scope)

/-- Whatever is called on a scenario, the description keeps all that it had and only grows at the
ends, except that replacing a clause changes what one function waits for. Whatever is handed out
keeps its meaning, however the building goes on. -/
theorem Reachable.append_only (h : s.Reachable) :
    (∀ c : Call, c.InPlace → (∀ inner, c.embedded? = some inner → inner.Reachable) →
      ∃ d d', s.describe = .ok d ∧ (s.after c).describe = .ok d' ∧
        (c.KeepsClauses → d.Grows d') ∧
        ∀ handle wait, c = .setWait handle wait → d.Rewires handle.id d') ∧
    ∀ (step : Step) (token : Token), token ∈ step.tokens s →
      ∃ m, token.Fits m ∧ token.meaning? (step.next s) = some m ∧
        ∀ steps : List Step, (∀ later ∈ steps, later.InPlace) →
          token.meaning? ((step.next s).run steps) = some m := by
  constructor
  · intro c hc hembedded
    obtain ⟨d, hdescribe, hd⟩ := h.exists_describe
    obtain ⟨d', hdescribe', hd'⟩ := (h.called c hembedded).exists_describe
    refine ⟨d, d', hdescribe, hdescribe', ?_⟩
    rcases s.after_eq_or c with heq | ⟨reply, hcall⟩
    · rw [heq, hd] at hd'
      cases hd'
      exact ⟨fun _ => .refl _, fun _ _ _ => .refl _ _⟩
    · exact describe_of_performs h.everywhere_intact.here hc hcall
        (outline_eq_ok_iff.mp hd) (outline_eq_ok_iff.mp hd')
  · intro step token htoken
    obtain ⟨m, hm, hfits⟩ := h.everywhere_intact.resolved_of_mem_tokens htoken
    have hnext := h.everywhere_intact.here.after_step step
    exact ⟨m, hfits, hm, fun steps hsteps => (hnext.extends_run hsteps).meaning? hm⟩

/-- The manager grows by a launch that waits inside of the worker, and what that launch waits for
is found whatever is called later on. -/
theorem manager_append_only :
    (∃ d d', manager.describe = .ok d ∧
      (manager.after (.startJob { job := "fping", entity := "client" }
        { finished := [.nested (.root 1) 0 0] })).describe = .ok d' ∧ d.Grows d') ∧
    ∃ m, Token.meaning? manager (.reference (.nested (.root 1) 0 0)) = some m ∧
      ∀ steps : List Step, (∀ later ∈ steps, later.InPlace) →
        Token.meaning? (manager.run steps) (.reference (.nested (.root 1) 0 0)) = some m := by
  obtain ⟨hcalls, htokens⟩ := manager_reachable.append_only
  constructor
  · obtain ⟨d, d', hd, hd', hgrows, -⟩ := hcalls (.startJob { job := "fping", entity := "client" }
      { finished := [.nested (.root 1) 0 0] }) (by simp [Call.InPlace]) (by simp [Call.embedded?])
    exact ⟨d, d', hd, hd', hgrows (by simp [Call.KeepsClauses])⟩
  · obtain ⟨m, -, hm, hlater⟩ := htokens (.ask (.nested ⟨.root 1, 0, .startScenario⟩ 0))
      (.reference (.nested (.root 1) 0 0)) List.mem_cons_self
    exact ⟨m, hm, hlater⟩

end Scenario

end Orchestration
