import Orchestration.Proofs.Scenario.Outline
import Orchestration.Proofs.Traffic.Drawing
import Orchestration.Proofs.Traffic.File

namespace Orchestration.TrafficMix

theorem build_eq (scope : Scope) (strict : Bool) (records : List TrafficRecord)
    (plotEntity : Option String) :
    match firstOffence? records with
    | some failure => (build scope (.builtin strict) records plotEntity).1 = .error failure
    | none => ∃ s, (build scope (.builtin strict) records plotEntity).1 = .ok s ∧
        ∀ style, ∃ text, s.toText style = .ok text := by
  rcases build_cases scope (.builtin strict) records plotEntity with
    ⟨s, hs, hbuilt⟩ | ⟨failure, hfailure, hsome | hrefused⟩
  · rw [hbuilt.unoffended]
    exact ⟨s, hs, hbuilt.intact.coherent.exists_text⟩
  · rw [hsome]
    exact hfailure
  · obtain ⟨launch, hlaunch, hcheck⟩ := hrefused
    rw [hlaunch.accepted strict] at hcheck
    cases hcheck

/-- With the registry of this library, the first offence decides how building ends. On the traffics
of a file it fails only by an overflow. -/
theorem build_decided (scope : Scope) (strict : Bool) (plotEntity : Option String) :
    (∀ records, match firstOffence? records with
      | some failure => (build scope (.builtin strict) records plotEntity).1 = .error failure
      | none => ∃ s, (build scope (.builtin strict) records plotEntity).1 = .ok s ∧
          ∀ style, ∃ text, s.toText style = .ok text) ∧
    ∀ text failure,
      (build scope (.builtin strict) (TrafficFile.ofText text).records plotEntity).1 =
          .error failure ↔
        failure = .durationOverflow ∧ ∃ r ∈ (TrafficFile.ofText text).records,
          Overflows (TrafficFile.ofText text).records r := by
  refine ⟨fun records => build_eq scope strict records plotEntity, ?_⟩
  intro text failure
  have hfirst := firstOffence?_of_wellDeclared (TrafficFile.ofText_wellDeclared text)
  have hbuild := build_eq scope strict (TrafficFile.ofText text).records plotEntity
  rw [hfirst] at hbuild
  by_cases hoverflow : ∃ r ∈ (TrafficFile.ofText text).records,
      Overflows (TrafficFile.ofText text).records r
  · rw [if_pos hoverflow] at hbuild
    rw [hbuild]
    constructor
    · rintro ⟨⟩
      exact ⟨rfl, hoverflow⟩
    · rintro ⟨rfl, -⟩
      rfl
  · rw [if_neg hoverflow] at hbuild
    obtain ⟨s, hs, -⟩ := hbuild
    rw [hs]
    constructor
    · rintro ⟨⟩
    · rintro ⟨-, h⟩
      exact absurd h hoverflow

end Orchestration.TrafficMix
