/-!
Look-ups by halving, in lists whose keys ascend. In other lists they may miss what is there.
-/

namespace Orchestration.Bisection

variable {α : Type} (key : α → Nat) (wanted : Nat)

/-- Leaves out one half of the members after the other, until one member is left: the lower half,
unless the key in the middle is too large. No round leaves out nothing, so as many rounds as there
are members are enough. -/
def narrow : (rounds : Nat) → List α → List α
  | 0, members => members
  | rounds + 1, members =>
    let half := members.length / 2
    if half = 0 then members
    else if members[half]?.any (wanted < key ·) then
      narrow rounds (members.take (members.length - half))
    else narrow rounds (members.drop half)

/-- The member that has the wanted key. -/
def find? (members : List α) : Option α :=
  (narrow key wanted members.length members).head?.filter (key · = wanted)

end Orchestration.Bisection
