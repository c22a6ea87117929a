import Orchestration.Proofs.Outcome
import Orchestration.Proofs.Traffic.Declarations
import Orchestration.Proofs.Traffic.Words
import Orchestration.Traffic.File

namespace Orchestration

/-- The names that a line may give to the kind. -/
def TrafficKind.names : TrafficKind → List String
  | .voip => ["voip"]
  | .webBrowsing => ["web", "web_browsing"]
  | .dash => ["dash"]
  | .dataTransfer => ["iperf3", "data_transfer"]

theorem TrafficKind.ofName?_eq_some_iff {name : String} {kind : TrafficKind} :
    ofName? name = some kind ↔ name ∈ kind.names := by
  constructor
  · intro h
    unfold ofName? at h
    split_ifs at h with hname hname hname hname
    all_goals
      cases h
      simpa [names] using hname
  · intro h
    cases kind <;> simp only [names, List.mem_cons, List.not_mem_nil, or_false] at h
    · subst h; rfl
    · rcases h with rfl | rfl <;> rfl
    · subst h; rfl
    · rcases h with rfl | rfl <;> rfl

def TrafficParameters.InRange : TrafficParameters → Prop
  | .voip port _ => port ≤ Text.max16
  | .webBrowsing runs parallelRuns => runs ≤ Text.max32 ∧ parallelRuns ≤ Text.max32
  | .dash _ tornadoPort => tornadoPort ≤ Text.max16
  | .dataTransfer port _ tos mtu => port ≤ Text.max16 ∧ tos ≤ Text.max32 ∧ mtu ≤ Text.max32

/-- The numbers of the record fit the integers that they are read as. -/
structure TrafficRecord.InRange (r : TrafficRecord) : Prop where
  id : r.id ≤ Text.max32
  duration : r.duration ≤ Text.max64
  waits : ∀ id ∈ r.waits, id ≤ Text.max32
  delay : r.delay ≤ Text.max64
  parameters : r.parameters.InRange

namespace TrafficFile

open Text (NumeralOf)

/-- Ids are written with hyphens between them, and `None` is written for none. -/
inductive IdsWritten : List Nat → List Char → Prop
  | none : IdsWritten [] ['N', 'o', 'n', 'e']
  | joined {ids : List Nat} {numerals : List (List Char)} (hne : ids ≠ [])
      (hnumerals : List.Forall₂ NumeralOf ids numerals) :
      IdsWritten ids (['-'].intercalate numerals)

inductive ParametersWritten : TrafficParameters → List (List Char) → Prop
  | voip {port : Nat} {codec : String} {portText : List Char} (hport : NumeralOf port portText) :
      ParametersWritten (.voip port codec) [portText, codec.toList]
  | webBrowsing {runs parallelRuns : Nat} {runsText parallelText : List Char}
      (hruns : NumeralOf runs runsText) (hparallel : NumeralOf parallelRuns parallelText) :
      ParametersWritten (.webBrowsing runs parallelRuns) [runsText, parallelText]
  | dash {protocol : String} {tornadoPort : Nat} {portText : List Char}
      (hport : NumeralOf tornadoPort portText) :
      ParametersWritten (.dash protocol tornadoPort) [protocol.toList, portText]
  | dataTransfer {port tos mtu : Nat} {size : String} {portText tosText mtuText : List Char}
      (hport : NumeralOf port portText) (htos : NumeralOf tos tosText)
      (hmtu : NumeralOf mtu mtuText) :
      ParametersWritten (.dataTransfer port size tos mtu)
        [portText, size.toList, tosText, mtuText]

/-- The fields of a line that says what the record says. -/
inductive FieldsWritten (r : TrafficRecord) : List (List Char) → Prop
  | mk {name : String} {id duration launched finished delay : List Char}
      {extra : List (List Char)} (hid : NumeralOf r.id id) (hname : name ∈ r.kind.names)
      (hduration : NumeralOf r.duration duration) (hlaunched : IdsWritten r.waitLaunched launched)
      (hfinished : IdsWritten r.waitFinished finished) (hdelay : NumeralOf r.delay delay)
      (hextra : ParametersWritten r.parameters extra) :
      FieldsWritten r (id :: name.toList :: r.source.toList :: r.destination.toList :: duration ::
        launched :: finished :: delay :: r.sourceIp.toList :: r.destinationIp.toList :: extra)

section Reading

variable {number n limit : Nat} {text : List Char} {ids : List Nat}

theorem readNumber_eq_ok_iff {field : String} :
    readNumber number field limit text = .ok n ↔ n ≤ limit ∧ NumeralOf n text := by
  rw [← Text.readNumeral_eq_some_iff, readNumber]
  cases Text.readNumeral limit text <;> simp

theorem not_mem_of_numerals {numerals : List (List Char)} (h : List.Forall₂ NumeralOf ids numerals)
    {c : Char} (hplus : c ≠ '+') (hdigit : c.isDigit = false) :
    ∀ numeral ∈ numerals, c ∉ numeral := by
  induction h with
  | nil => exact List.forall_mem_nil _
  | cons hnumeral _ ih => exact List.forall_mem_cons.mpr ⟨hnumeral.not_mem hplus hdigit, ih⟩

theorem splitOnP_intercalate {numerals : List (List Char)} (hne : ids ≠ [])
    (h : List.Forall₂ NumeralOf ids numerals) :
    (['-'].intercalate numerals).splitOnP (· == '-') = numerals := by
  rw [← List.splitOn_eq_splitOnP]
  apply List.splitOn_intercalate '-' (not_mem_of_numerals h (by decide) (by decide))
  rintro rfl
  exact hne (List.forall₂_nil_right_iff.mp h)

/-- No ids look like the word for none of them. -/
theorem intercalate_ne_none {numerals : List (List Char)} (hne : ids ≠ [])
    (h : List.Forall₂ NumeralOf ids numerals) :
    ['-'].intercalate numerals ≠ ['N', 'o', 'n', 'e'] := by
  intro hnone
  obtain rfl : [['N', 'o', 'n', 'e']] = numerals := by
    rw [← splitOnP_intercalate hne h, hnone]
    decide
  cases h with
  | cons hnumeral _ =>
      have hnot : 'N' ∉ _ := hnumeral.not_mem (by decide) (by decide)
      exact hnot List.mem_cons_self

theorem mapM_readNumber_eq_ok_iff {field : String} {numerals : List (List Char)} :
    numerals.mapM (readNumber number field limit) = .ok ids ↔
      (∀ id ∈ ids, id ≤ limit) ∧ List.Forall₂ NumeralOf ids numerals := by
  rw [Outcome.mapM_eq_ok_iff, ← List.forall₂_and_left]
  simp only [readNumber_eq_ok_iff]
  exact ⟨List.Forall₂.flip, List.Forall₂.flip⟩

theorem readIds_eq_ok_iff :
    readIds number text = .ok ids ↔ (∀ id ∈ ids, id ≤ Text.max32) ∧ IdsWritten ids text := by
  rw [readIds]
  split
  next hnone =>
    subst hnone
    rw [Outcome.pure_eq_ok_iff]
    constructor
    · rintro rfl
      exact ⟨List.forall_mem_nil _, .none⟩
    · rintro ⟨-, hwritten⟩
      generalize htext : ['N', 'o', 'n', 'e'] = text at hwritten
      cases hwritten with
      | none => rfl
      | joined hne hnumerals => exact absurd htext.symm (intercalate_ne_none hne hnumerals)
  next hsome =>
    rw [mapM_readNumber_eq_ok_iff]
    refine and_congr_right fun _ => ⟨fun hnumerals => ?_, fun hwritten => ?_⟩
    · have hne : ids ≠ [] := by
        rintro rfl
        exact List.splitOnP_ne_nil _ text (List.forall₂_nil_left_iff.mp hnumerals)
      have hjoined := IdsWritten.joined hne hnumerals
      rwa [← List.splitOn_eq_splitOnP, List.intercalate_splitOn] at hjoined
    · cases hwritten with
      | none => exact absurd rfl hsome
      | joined hne hnumerals => rwa [splitOnP_intercalate hne hnumerals]

theorem readParameters_eq_ok_iff {wrongCount : Failure} {kind : TrafficKind}
    {extra : List (List Char)} {parameters : TrafficParameters} :
    readParameters number wrongCount kind extra = .ok parameters ↔
      parameters.kind = kind ∧ parameters.InRange ∧ ParametersWritten parameters extra := by
  constructor
  · intro h
    unfold readParameters at h
    split at h <;> simp only [Outcome.bind_eq_ok_iff, readNumber_eq_ok_iff,
      Outcome.pure_eq_ok_iff, Outcome.throw_ne_ok] at h
    next port codec =>
      obtain ⟨n, ⟨hle, hport⟩, rfl⟩ := h
      have hwritten : ParametersWritten (.voip n (String.ofList codec))
          [port, (String.ofList codec).toList] := .voip hport
      rw [String.toList_ofList] at hwritten
      exact ⟨rfl, hle, hwritten⟩
    next =>
      obtain ⟨_, ⟨hruns, hrunsText⟩, _, ⟨hparallel, hparallelText⟩, rfl⟩ := h
      exact ⟨rfl, ⟨hruns, hparallel⟩, .webBrowsing hrunsText hparallelText⟩
    next protocol port =>
      obtain ⟨n, ⟨hle, hport⟩, rfl⟩ := h
      have hwritten : ParametersWritten (.dash (String.ofList protocol) n)
          [(String.ofList protocol).toList, port] := .dash hport
      rw [String.toList_ofList] at hwritten
      exact ⟨rfl, hle, hwritten⟩
    next port size tos mtu =>
      obtain ⟨n, ⟨hn, hport⟩, t, ⟨ht, htos⟩, m, ⟨hm, hmtu⟩, rfl⟩ := h
      have hwritten : ParametersWritten (.dataTransfer n (String.ofList size) t m)
          [port, (String.ofList size).toList, tos, mtu] := .dataTransfer hport htos hmtu
      rw [String.toList_ofList] at hwritten
      exact ⟨rfl, ⟨hn, ht, hm⟩, hwritten⟩
  · rintro ⟨rfl, hrange, hwritten⟩
    cases hwritten <;> simp only [TrafficParameters.kind, readParameters, Outcome.bind_eq_ok_iff,
      readNumber_eq_ok_iff, Outcome.pure_eq_ok_iff, String.ofList_toList]
    case voip hport => exact ⟨_, ⟨hrange, hport⟩, rfl⟩
    case webBrowsing hruns hparallel =>
      exact ⟨_, ⟨hrange.1, hruns⟩, _, ⟨hrange.2, hparallel⟩, rfl⟩
    case dash hport => exact ⟨_, ⟨hrange, hport⟩, rfl⟩
    case dataTransfer hport htos hmtu =>
      exact ⟨_, ⟨hrange.1, hport⟩, _, ⟨hrange.2.1, htos⟩, _, ⟨hrange.2.2, hmtu⟩, rfl⟩

theorem readFields_eq_ok_iff {fields : List (List Char)} {r : TrafficRecord} :
    readFields number fields = .ok r ↔ r.InRange ∧ FieldsWritten r fields := by
  constructor
  · intro h
    unfold readFields at h
    split at h
    next id name rest =>
      split at h
      next => cases h
      next kind hkind =>
        split at h
        next source destination duration launched finished delay sourceIp destinationIp extra =>
          simp only [Outcome.bind_eq_ok_iff, readParameters_eq_ok_iff, readNumber_eq_ok_iff,
            readIds_eq_ok_iff, Outcome.pure_eq_ok_iff] at h
          obtain ⟨parameters, ⟨rfl, hparameters, hextra⟩, n, ⟨hn, hid⟩, d, ⟨hd, hduration⟩, ls,
            ⟨hls, hlaunched⟩, fs, ⟨hfs, hfinished⟩, w, ⟨hw, hdelay⟩, rfl⟩ := h
          have hname := TrafficKind.ofName?_eq_some_iff.mp hkind
          refine ⟨⟨hn, hd, List.forall_mem_append.mpr ⟨hls, hfs⟩, hw, hparameters⟩, ?_⟩
          have hwritten : FieldsWritten ⟨n, .ofList source, .ofList destination, d, ls, fs, w,
              .ofList sourceIp, .ofList destinationIp, parameters⟩ _ :=
            .mk hid hname hduration hlaunched hfinished hdelay hextra
          simpa only [String.toList_ofList] using hwritten
        next => cases h
    next => cases h
  · rintro ⟨hrange, hwritten⟩
    cases hwritten with
    | mk hid hname hduration hlaunched hfinished hdelay hextra =>
        obtain ⟨hlaunchedRange, hfinishedRange⟩ := List.forall_mem_append.mp hrange.waits
        rw [readFields, String.ofList_toList, TrafficKind.ofName?_eq_some_iff.mpr hname]
        simp only [Outcome.bind_eq_ok_iff, readParameters_eq_ok_iff, readNumber_eq_ok_iff,
          readIds_eq_ok_iff, Outcome.pure_eq_ok_iff, String.ofList_toList]
        exact ⟨_, ⟨rfl, hrange.parameters, hextra⟩, _, ⟨hrange.id, hid⟩, _,
          ⟨hrange.duration, hduration⟩, _, ⟨hlaunchedRange, hlaunched⟩, _,
          ⟨hfinishedRange, hfinished⟩, _, ⟨hrange.delay, hdelay⟩, rfl⟩

end Reading

/-- The outcome is no other failure than that the line of the number is malformed. -/
def OnlyMalformed {α : Type} (number : Nat) (outcome : Except Failure α) : Prop :=
  ∀ failure, outcome = .error failure → ∃ fault, failure = .malformedRecord number fault

section Refusal

variable {number : Nat}

namespace OnlyMalformed

variable {α β : Type}

theorem pure (a : α) : OnlyMalformed number (Pure.pure a : Except Failure α) := by
  rintro failure ⟨⟩

theorem throw (fault : RecordFault) : OnlyMalformed number
    (MonadExcept.throw (.malformedRecord number fault) : Except Failure α) := by
  rintro failure ⟨⟩
  exact ⟨fault, rfl⟩

theorem bind {x : Except Failure α} {f : α → Except Failure β} (hx : OnlyMalformed number x)
    (hf : ∀ a, OnlyMalformed number (f a)) : OnlyMalformed number (x >>= f) := by
  intro failure h
  rcases Outcome.bind_eq_error_iff.mp h with h | ⟨a, -, h⟩
  · exact hx failure h
  · exact hf a failure h

theorem mapM {f : α → Except Failure β} (hf : ∀ a, OnlyMalformed number (f a)) (xs : List α) :
    OnlyMalformed number (xs.mapM f) := by
  intro failure h
  obtain ⟨x, -, hx⟩ := Outcome.exists_of_mapM_eq_error h
  exact hf x failure hx

end OnlyMalformed

theorem onlyMalformed_readNumber (field : String) (limit : Nat) (text : List Char) :
    OnlyMalformed number (readNumber number field limit text) := by
  unfold readNumber
  split
  next n _ => exact .pure n
  next => exact .throw _

theorem onlyMalformed_readIds (text : List Char) : OnlyMalformed number (readIds number text) := by
  unfold readIds
  split
  next => exact .pure []
  next => exact .mapM (onlyMalformed_readNumber _ _) _

theorem onlyMalformed_readParameters (fault : RecordFault) (kind : TrafficKind)
    (extra : List (List Char)) :
    OnlyMalformed number (readParameters number (.malformedRecord number fault) kind extra) := by
  unfold readParameters
  split
  next => exact .bind (onlyMalformed_readNumber _ _ _) fun _ => .pure _
  next =>
    exact .bind (onlyMalformed_readNumber _ _ _) fun _ =>
      .bind (onlyMalformed_readNumber _ _ _) fun _ => .pure _
  next => exact .bind (onlyMalformed_readNumber _ _ _) fun _ => .pure _
  next =>
    exact .bind (onlyMalformed_readNumber _ _ _) fun _ =>
      .bind (onlyMalformed_readNumber _ _ _) fun _ =>
      .bind (onlyMalformed_readNumber _ _ _) fun _ => .pure _
  next => exact .throw fault

theorem onlyMalformed_readFields (fields : List (List Char)) :
    OnlyMalformed number (readFields number fields) := by
  unfold readFields
  split
  next =>
    split
    next => exact .throw _
    next =>
      split
      next =>
        exact .bind (onlyMalformed_readParameters _ _ _) fun _ =>
          .bind (onlyMalformed_readNumber _ _ _) fun _ =>
          .bind (onlyMalformed_readNumber _ _ _) fun _ =>
          .bind (onlyMalformed_readIds _) fun _ =>
          .bind (onlyMalformed_readIds _) fun _ =>
          .bind (onlyMalformed_readNumber _ _ _) fun _ => .pure _
      next => exact .throw _
  next => exact .throw _

end Refusal

end TrafficFile

end Orchestration
