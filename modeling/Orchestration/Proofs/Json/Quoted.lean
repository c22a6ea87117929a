import Mathlib.Tactic.SplitIfs
import Orchestration.Json.Printer
import Orchestration.Json.Raw

namespace Orchestration.Json

namespace Raw

/-- What a character becomes inside quotes: control characters without a short escape are written by
their number. -/
def pieceOf (c : Char) : Piece :=
  if c.toNat < 0x20 ∧ c ∉ ['\x08', '\x0c', '\n', '\r', '\t'] then .unit c.toNat else .char c

theorem hexValue?_hexDigit : ∀ n < 16, hexValue? (hexDigit n) = some n := by
  decide

theorem pieces_short {letter c : Char} (hletter : letter ≠ 'u') (hc : shortEscape? letter = some c)
    (rest : List Char) :
    pieces ('\\' :: letter :: rest) = (pieces rest).map fun p => (.char c :: p.1, p.2) := by
  rw [pieces]
  · rw [hc]
    cases pieces rest <;> rfl
  · intro a b c d rest h
    exact absurd h hletter

theorem pieces_unit {a b c d : Char} {code : Nat} (hcode : hexUnit? a b c d = some code)
    (rest : List Char) :
    pieces ('\\' :: 'u' :: a :: b :: c :: d :: rest) =
      (pieces rest).map fun p => (.unit code :: p.1, p.2) := by
  rw [pieces, hcode]
  cases pieces rest <;> rfl

theorem pieces_plain {c : Char} (hquote : c ≠ '\"') (hslash : c ≠ '\\')
    (hcontrol : ¬ c.toNat < 0x20) (rest : List Char) :
    pieces (c :: rest) = (pieces rest).map fun p => (.char c :: p.1, p.2) := by
  rw [pieces]
  · simp only [hquote, hslash, hcontrol, or_self, ↓reduceIte]
    cases pieces rest <;> rfl
  · intro a b c d rest h
    exact absurd h hslash
  · intro letter rest h
    exact absurd h hslash

theorem pieces_escape (c : Char) (rest : List Char) :
    pieces (escape c ++ rest) = (pieces rest).map fun p => (pieceOf c :: p.1, p.2) := by
  unfold escape
  split_ifs with hquote hslash hb hf hn hr ht hcontrol
  · subst hquote
    exact pieces_short (by decide) (by decide) rest
  · subst hslash
    exact pieces_short (by decide) (by decide) rest
  · subst hb
    exact pieces_short (by decide) (by decide) rest
  · subst hf
    exact pieces_short (by decide) (by decide) rest
  · subst hn
    exact pieces_short (by decide) (by decide) rest
  · subst hr
    exact pieces_short (by decide) (by decide) rest
  · subst ht
    exact pieces_short (by decide) (by decide) rest
  · have hhigh := hexValue?_hexDigit (c.toNat / 16) (by omega)
    have hlow := hexValue?_hexDigit (c.toNat % 16) (by omega)
    have hcode : hexUnit? '0' '0' (hexDigit (c.toNat / 16)) (hexDigit (c.toNat % 16)) =
        some c.toNat := by
      have hzero : hexValue? '0' = some 0 := by decide
      simp only [hexUnit?, hzero, hhigh, hlow, Option.bind_eq_bind, Option.bind_some,
        Option.pure_def, Option.some.injEq]
      omega
    have hpiece : pieceOf c = .unit c.toNat := by
      simp [pieceOf, hcontrol, hb, hf, hn, hr, ht]
    rw [hpiece]
    exact pieces_unit hcode rest
  · have hpiece : pieceOf c = .char c := by
      simp [pieceOf, hcontrol]
    rw [hpiece]
    exact pieces_plain hquote hslash hcontrol rest

theorem pieces_flatMap_escape (text rest : List Char) :
    pieces (text.flatMap escape ++ '\"' :: rest) = some (text.map pieceOf, rest) := by
  induction text with
  | nil => rfl
  | cons c text ih =>
      rw [List.flatMap_cons, List.append_assoc, pieces_escape, ih]
      rfl

/-- A control character is half of no surrogate pair, so it stands alone whatever comes next. -/
theorem assemble_unit {code : Nat} (hcode : code < 0x20) (rest : List Piece) :
    assemble (.unit code :: rest) = (assemble rest).map (Char.ofNat code :: ·) := by
  have hhigh : isHigh code = false := by
    simp only [isHigh, Bool.and_eq_false_iff, decide_eq_false_iff_not]
    omega
  have hlow : isLow code = false := by
    simp only [isLow, Bool.and_eq_false_iff, decide_eq_false_iff_not]
    omega
  rcases rest with _ | ⟨_ | low, rest⟩
  · simp [assemble, hhigh, hlow]
  · simp [assemble, hhigh, hlow]
  · simp [assemble, hhigh, hlow]

theorem assemble_map_pieceOf (text : List Char) : assemble (text.map pieceOf) = some text := by
  induction text with
  | nil => rfl
  | cons c text ih =>
      rw [List.map_cons, pieceOf]
      split_ifs with hcontrol
      · rw [assemble_unit hcontrol.1, ih]
        simp
      · rw [assemble, ih]
        rfl

theorem quotedRest_escape (text : String) (rest : List Char) :
    quotedRest (text.toList.flatMap escape ++ '\"' :: rest) = some (some text, rest) := by
  simp [quotedRest, pieces_flatMap_escape, assemble_map_pieceOf]

end Raw

end Orchestration.Json
