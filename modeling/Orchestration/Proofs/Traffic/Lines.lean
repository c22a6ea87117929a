import Orchestration.Text

namespace Orchestration.Text

theorem lines_of_not_mem {line : List Char} (h : '\n' ∉ line) :
    lines line = if line.isEmpty then [] else [line] := by
  rw [lines, List.splitOnP_eq_singleton, closeLines]
  intro c hc
  simpa using ne_of_mem_of_not_mem hc h

theorem lines_nil : lines [] = [] := by
  rw [lines_of_not_mem List.not_mem_nil]
  rfl

theorem lines_append {line : List Char} (h : '\n' ∉ line) (rest : List Char) :
    lines (line ++ '\n' :: rest) = dropReturn line :: lines rest := by
  have hsplit : (line ++ '\n' :: rest).splitOnP (· == '\n') =
      line :: rest.splitOnP (· == '\n') := by
    apply List.splitOnP_append_cons_of_forall_mem
    · intro c hc
      simpa using ne_of_mem_of_not_mem hc h
    · rfl
  obtain ⟨next, others, hrest⟩ :=
    List.exists_cons_of_ne_nil (List.splitOnP_ne_nil (· == '\n') rest)
  rw [lines, lines, hsplit, hrest, closeLines]

/-- A text is a line that does not end, or a line with its end and a shorter text. -/
@[elab_as_elim]
theorem lines_induction {motive : List Char → Prop}
    (last : ∀ line, '\n' ∉ line → motive line)
    (append : ∀ line rest, '\n' ∉ line → motive rest → motive (line ++ '\n' :: rest))
    (text : List Char) : motive text := by
  induction hlength : text.length using Nat.strongRecOn generalizing text with
  | ind length ih =>
      by_cases hmem : '\n' ∈ text
      · obtain ⟨line, rest, rfl, hline⟩ := List.eq_append_cons_of_mem hmem
        apply append line rest hline
        apply ih rest.length _ rest rfl
        simp only [← hlength, List.length_append, List.length_cons]
        omega
      · exact last text hmem

/-- The text up to the end of its first lines, `count` of them. -/
def takeLines : (count : Nat) → List Char → List Char
  | 0, _ => []
  | _ + 1, [] => []
  | count + 1, c :: rest => c :: takeLines (if c = '\n' then count else count + 1) rest

theorem takeLines_of_not_mem {line : List Char} (h : '\n' ∉ line) (count : Nat) :
    takeLines (count + 1) line = line := by
  induction line with
  | nil => rfl
  | cons c rest ih =>
      obtain ⟨hne, hrest⟩ := List.ne_and_not_mem_of_not_mem_cons h
      rw [takeLines, if_neg hne.symm, ih hrest]

theorem takeLines_append {line : List Char} (h : '\n' ∉ line) (count : Nat) (rest : List Char) :
    takeLines (count + 1) (line ++ '\n' :: rest) = line ++ '\n' :: takeLines count rest := by
  induction line with
  | nil => rfl
  | cons c line ih =>
      obtain ⟨hne, hline⟩ := List.ne_and_not_mem_of_not_mem_cons h
      rw [List.cons_append, takeLines, if_neg hne.symm, ih hline, List.cons_append]

theorem lines_takeLines (count : Nat) (text : List Char) :
    lines (takeLines count text) = (lines text).take count := by
  induction text using lines_induction generalizing count with
  | last line h =>
      cases count with
      | zero => rw [takeLines, lines_nil, List.take_zero]
      | succ count =>
          rw [takeLines_of_not_mem h, List.take_of_length_le]
          rw [lines_of_not_mem h]
          split <;> simp
  | append line rest h ih =>
      cases count with
      | zero => rw [takeLines, lines_nil, List.take_zero]
      | succ count =>
          rw [takeLines_append h, lines_append h, lines_append h, List.take_succ_cons, ih]

/-- The text with nothing left in the lines of the given numbers, `number` being that of its first
line. Their ends stay. -/
def blankLines (numbers : List Nat) : (number : Nat) → List Char → List Char
  | _, [] => []
  | number, c :: rest =>
    if c = '\n' then c :: blankLines numbers (number + 1) rest
    else if number ∈ numbers then blankLines numbers number rest
    else c :: blankLines numbers number rest

theorem blankLines_of_not_mem {line : List Char} (h : '\n' ∉ line) (numbers : List Nat)
    (number : Nat) :
    blankLines numbers number line = if number ∈ numbers then [] else line := by
  induction line with
  | nil => simp [blankLines]
  | cons c rest ih =>
      obtain ⟨hne, hrest⟩ := List.ne_and_not_mem_of_not_mem_cons h
      rw [blankLines, if_neg hne.symm, ih hrest]
      split <;> rfl

theorem blankLines_append {line : List Char} (h : '\n' ∉ line) (numbers : List Nat)
    (number : Nat) (rest : List Char) :
    blankLines numbers number (line ++ '\n' :: rest) =
      (if number ∈ numbers then [] else line) ++ '\n' :: blankLines numbers (number + 1) rest := by
  induction line with
  | nil => simp [blankLines]
  | cons c line ih =>
      obtain ⟨hne, hline⟩ := List.ne_and_not_mem_of_not_mem_cons h
      rw [List.cons_append, blankLines, if_neg hne.symm, ih hline]
      split <;> rfl

end Orchestration.Text
