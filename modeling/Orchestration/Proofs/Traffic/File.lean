import Orchestration.Proofs.Traffic.Declarations
import Orchestration.Proofs.Traffic.Lines
import Orchestration.Traffic.File

namespace Orchestration

/-- What became of a line. -/
inductive LineEntry where
  | blank
  | kept (record : TrafficRecord)
  | rejected (rejection : RejectedLine)

namespace LineEntry

def record? : LineEntry → Option TrafficRecord
  | .kept record => some record
  | _ => none

def rejection? : LineEntry → Option RejectedLine
  | .rejected rejection => some rejection
  | _ => none

@[simp] theorem record?_blank : blank.record? = none := rfl

@[simp] theorem record?_kept (r : TrafficRecord) : (kept r).record? = some r := rfl

@[simp] theorem record?_rejected (r : RejectedLine) : (rejected r).record? = none := rfl

@[simp] theorem rejection?_blank : blank.rejection? = none := rfl

@[simp] theorem rejection?_kept (r : TrafficRecord) : (kept r).rejection? = none := rfl

@[simp] theorem rejection?_rejected (r : RejectedLine) : (rejected r).rejection? = some r := rfl

end LineEntry

namespace TrafficFile

/-- What becomes of a line when the records kept before it have the ids. -/
inductive LineRead (ids : List Nat) (number : Nat) (line : List Char) : LineEntry → Prop
  | blank (hcontent : content line = []) : LineRead ids number line .blank
  | kept {r : TrafficRecord} (hcontent : content line ≠ [])
      (hread : readRecord number (content line) = .ok r)
      (hcheck : checkDeclaration ids.contains r.id r.waitLaunched r.waitFinished = .ok ()) :
      LineRead ids number line (.kept r)
  | unreadable {failure : Failure} (hcontent : content line ≠ [])
      (hread : readRecord number (content line) = .error failure) :
      LineRead ids number line (.rejected ⟨number, String.ofList (content line), failure⟩)
  | undeclarable {r : TrafficRecord} {failure : Failure} (hcontent : content line ≠ [])
      (hread : readRecord number (content line) = .ok r)
      (hcheck : checkDeclaration ids.contains r.id r.waitLaunched r.waitFinished =
        .error failure) :
      LineRead ids number line (.rejected ⟨number, String.ofList (content line), failure⟩)

/-- What becomes of lines, one entry for each, the number of the first and the ids of the records
kept before them being given. -/
inductive LinesRead : List Nat → Nat → List (List Char) → List LineEntry → Prop
  | nil (ids : List Nat) (number : Nat) : LinesRead ids number [] []
  | cons {ids : List Nat} {number : Nat} {line : List Char} {lines : List (List Char)}
      {entry : LineEntry} {entries : List LineEntry} (hline : LineRead ids number line entry)
      (hlines : LinesRead (ids ++ entry.record?.toList.map TrafficRecord.id) (number + 1) lines
        entries) :
      LinesRead ids number (line :: lines) (entry :: entries)

theorem exists_lineRead (ids : List Nat) (number : Nat) (line : List Char) :
    ∃ entry, LineRead ids number line entry := by
  by_cases hcontent : content line = []
  · exact ⟨_, .blank hcontent⟩
  · cases hread : readRecord number (content line) with
    | error failure => exact ⟨_, .unreadable hcontent hread⟩
    | ok r =>
        cases hcheck : checkDeclaration ids.contains r.id r.waitLaunched r.waitFinished with
        | error failure => exact ⟨_, .undeclarable hcontent hread hcheck⟩
        | ok _ => exact ⟨_, .kept hcontent hread hcheck⟩

theorem exists_linesRead (lines : List (List Char)) (ids : List Nat) (number : Nat) :
    ∃ entries, LinesRead ids number lines entries := by
  induction lines generalizing ids number with
  | nil => exact ⟨[], .nil ids number⟩
  | cons line lines ih =>
      obtain ⟨entry, hline⟩ := exists_lineRead ids number line
      obtain ⟨entries, hlines⟩ :=
        ih (ids ++ entry.record?.toList.map TrafficRecord.id) (number + 1)
      exact ⟨entry :: entries, .cons hline hlines⟩

namespace LinesRead

variable {ids numbers : List Nat} {number : Nat} {lines : List (List Char)}
  {entries : List LineEntry}

theorem take (h : LinesRead ids number lines entries) (count : Nat) :
    LinesRead ids number (lines.take count) (entries.take count) := by
  induction h generalizing count with
  | nil ids number =>
      rw [List.take_nil, List.take_nil]
      exact .nil ids number
  | cons hline _ ih =>
      cases count with
      | zero => exact .nil _ _
      | succ count => exact .cons hline (ih count)

theorem le_of_rejected (h : LinesRead ids number lines entries) :
    ∀ rejection ∈ entries.filterMap LineEntry.rejection?, number ≤ rejection.line := by
  induction h with
  | nil ids number => simp
  | @cons ids number line lines entry entries hline _ ih =>
      intro rejection hmem
      obtain ⟨other, hother, hrejection⟩ := List.mem_filterMap.mp hmem
      rcases List.mem_cons.mp hother with rfl | hother
      · cases hline <;> simp only [LineEntry.rejection?_blank, LineEntry.rejection?_kept,
          LineEntry.rejection?_rejected, reduceCtorEq, Option.some.injEq] at hrejection
        all_goals
          subst hrejection
          exact Nat.le_refl _
      · have hlater := ih rejection (List.mem_filterMap.mpr ⟨other, hother, hrejection⟩)
        exact Nat.le_of_succ_le hlater

/-- What is kept goes on with a well declared list. -/
theorem wellDeclared {records : List TrafficRecord}
    (h : LinesRead (records.map TrafficRecord.id) number lines entries)
    (hrecords : WellDeclared records) :
    WellDeclared (records ++ entries.filterMap LineEntry.record?) := by
  generalize hids : records.map TrafficRecord.id = ids at h
  induction h generalizing records with
  | nil => simpa using hrecords
  | cons hline _ ih =>
      cases hline with
      | blank | unreadable | undeclarable =>
          exact ih hrecords (by simpa using hids)
      | @kept r hcontent hread hcheck =>
          subst hids
          obtain ⟨hid, hwaits⟩ := checkDeclaration_eq_ok_iff.mp hcheck
          have hnew : WellDeclared (records ++ [r]) :=
            hrecords.snoc (by simpa using hid) (by simpa [TrafficRecord.waits] using hwaits)
          simpa using ih hnew (by simp)

end LinesRead

theorem addLine_of_lineRead {file : TrafficFile} {number : Nat} {line : List Char}
    {entry : LineEntry} (h : LineRead (file.records.map TrafficRecord.id) number line entry) :
    file.addLine (line, number) =
      ⟨file.records ++ entry.record?.toList, file.rejected ++ entry.rejection?.toList⟩ := by
  have hdeclares : file.declares = (file.records.map TrafficRecord.id).contains := by
    funext id
    rw [Bool.eq_iff_iff]
    simp [declares]
  cases h with
  | blank hcontent => simp [addLine, hcontent]
  | kept hcontent hread hcheck =>
      have haccept := hdeclares ▸ hcheck
      simp [addLine, accept, hcontent, hread, haccept, bind, Except.bind, pure, Except.pure]
  | unreadable hcontent hread =>
      simp [addLine, accept, hcontent, hread, bind, Except.bind]
  | undeclarable hcontent hread hcheck =>
      have haccept := hdeclares ▸ hcheck
      simp [addLine, accept, hcontent, hread, haccept, bind, Except.bind]

/-- Reading on with some rejected lines left out. -/
def addLineUnless (numbers : List Nat) (file : TrafficFile) (line : List Char × Nat) :
    TrafficFile :=
  if line.2 ∈ numbers then file else file.addLine line

/-- Lines that are rejected can be left out: the others fare as before. -/
theorem foldl_addLineUnless {lines : List (List Char)} {entries : List LineEntry} {number : Nat}
    {numbers : List Nat} {file : TrafficFile}
    (h : LinesRead (file.records.map TrafficRecord.id) number lines entries)
    (hnumbers : ∀ n ∈ numbers, number ≤ n →
      n ∈ (entries.filterMap LineEntry.rejection?).map RejectedLine.line) :
    (lines.zipIdx number).foldl (addLineUnless numbers) file =
      ⟨file.records ++ entries.filterMap LineEntry.record?,
        file.rejected ++ (entries.filterMap LineEntry.rejection?).filter
          fun rejection => rejection.line ∉ numbers⟩ := by
  generalize hids : file.records.map TrafficRecord.id = ids at h
  induction h generalizing file with
  | nil => simp
  | @cons ids number line lines entry entries hline hlines ih =>
      subst hids
      have hlater : ∀ n ∈ numbers, number + 1 ≤ n →
          n ∈ (entries.filterMap LineEntry.rejection?).map RejectedLine.line := by
        intro n hn hle
        have hmem := hnumbers n hn (Nat.le_of_succ_le hle)
        cases hline with
        | blank | kept => simpa using hmem
        | unreadable | undeclarable =>
            simp only [List.filterMap_cons, LineEntry.rejection?_rejected, List.map_cons,
              List.mem_cons] at hmem
            exact hmem.resolve_left (Nat.ne_of_gt hle)
      rw [List.zipIdx_cons, List.foldl_cons]
      by_cases hnumber : number ∈ numbers
      · -- The line of this number is rejected, since those after it have larger numbers.
        have hmem := hnumbers number hnumber (Nat.le_refl _)
        have hrejected : entry.record? = none ∧
            ∃ rejection, entry.rejection? = some rejection ∧ rejection.line = number := by
          have hnot : number ∉ (entries.filterMap LineEntry.rejection?).map RejectedLine.line := by
            intro hin
            obtain ⟨rejection, hrejection, hsame⟩ := List.mem_map.mp hin
            have := hlines.le_of_rejected rejection hrejection
            omega
          cases hline with
          | blank | kept => exact absurd (by simpa using hmem) hnot
          | unreadable | undeclarable => exact ⟨rfl, _, rfl, rfl⟩
        obtain ⟨hrecord, rejection, hrejection, hrejectionLine⟩ := hrejected
        rw [addLineUnless, if_pos hnumber, ih hlater (by simp [hrecord])]
        simp [hrecord, hrejection, hrejectionLine, hnumber]
      · have hkeep : entry.rejection?.toList.filter (fun rejection => rejection.line ∉ numbers) =
            entry.rejection?.toList := by
          cases hline <;> simp [hnumber]
        rw [addLineUnless, if_neg hnumber, addLine_of_lineRead hline, ih hlater (by simp)]
        simp only [List.filterMap_eq_flatMap_toList, List.flatMap_cons, List.filter_append, hkeep,
          List.append_assoc]

theorem foldl_addLine {lines : List (List Char)} {entries : List LineEntry} {number : Nat}
    {file : TrafficFile}
    (h : LinesRead (file.records.map TrafficRecord.id) number lines entries) :
    (lines.zipIdx number).foldl addLine file =
      ⟨file.records ++ entries.filterMap LineEntry.record?,
        file.rejected ++ entries.filterMap LineEntry.rejection?⟩ := by
  have hnone : addLineUnless [] = addLine := by
    funext file line
    simp [addLineUnless]
  have hall := foldl_addLineUnless h (List.forall_mem_nil _)
  rw [hnone] at hall
  simpa using hall

theorem ofText_eq {text : String} {entries : List LineEntry}
    (h : LinesRead [] 1 (Text.lines text.toList) entries) :
    ofText text =
      ⟨entries.filterMap LineEntry.record?, entries.filterMap LineEntry.rejection?⟩ := by
  have hfold : ((Text.lines text.toList).zipIdx 1).foldl addLine {} = _ := foldl_addLine h
  simpa [ofText] using hfold

theorem ofText_wellDeclared (text : String) : WellDeclared (ofText text).records := by
  obtain ⟨entries, hentries⟩ := exists_linesRead (Text.lines text.toList) [] 1
  have hall : WellDeclared ([] ++ entries.filterMap LineEntry.record?) :=
    LinesRead.wellDeclared hentries .nil
  rwa [ofText_eq hentries, ← List.nil_append (entries.filterMap LineEntry.record?)]

theorem addLine_nil (file : TrafficFile) (number : Nat) : file.addLine ([], number) = file := by
  have hblank : LineRead (file.records.map TrafficRecord.id) number [] .blank := .blank rfl
  simpa using addLine_of_lineRead hblank

/-- Blanking lines of a text is leaving them out. -/
theorem foldl_addLine_blankLines (numbers : List Nat) (text : List Char) (number : Nat)
    (file : TrafficFile) :
    ((Text.lines (Text.blankLines numbers number text)).zipIdx number).foldl addLine file =
      ((Text.lines text).zipIdx number).foldl (addLineUnless numbers) file := by
  induction text using Text.lines_induction generalizing number file with
  | last line h =>
      rw [Text.blankLines_of_not_mem h, Text.lines_of_not_mem h]
      by_cases hnumber : number ∈ numbers
      · rw [if_pos hnumber, Text.lines_nil]
        split <;> simp [addLineUnless, hnumber]
      · rw [if_neg hnumber, Text.lines_of_not_mem h]
        split <;> simp [addLineUnless, hnumber]
  | append line rest h ih =>
      have hblank : '\n' ∉ if number ∈ numbers then [] else line := by
        split
        · exact List.not_mem_nil
        · exact h
      rw [Text.blankLines_append h, Text.lines_append hblank, Text.lines_append h,
        List.zipIdx_cons, List.zipIdx_cons, List.foldl_cons, List.foldl_cons, ih]
      congr 1
      by_cases hnumber : number ∈ numbers
      · simp [addLineUnless, hnumber, Text.dropReturn, addLine_nil]
      · simp [addLineUnless, hnumber]

def blanked (numbers : List Nat) (text : String) : String :=
  String.ofList (Text.blankLines numbers 1 text.toList)

theorem ofText_blanked {text : String} {numbers : List Nat}
    (hnumbers : numbers ⊆ (ofText text).rejected.map RejectedLine.line) :
    ofText (blanked numbers text) =
      ⟨(ofText text).records,
        (ofText text).rejected.filter fun rejection => rejection.line ∉ numbers⟩ := by
  obtain ⟨entries, hentries⟩ := exists_linesRead (Text.lines text.toList) [] 1
  have htext := ofText_eq hentries
  rw [htext] at hnumbers ⊢
  have hfold : ((Text.lines text.toList).zipIdx 1).foldl (addLineUnless numbers) {} = _ :=
    foldl_addLineUnless hentries fun n hn _ => hnumbers hn
  rw [← foldl_addLine_blankLines] at hfold
  simpa [ofText, blanked] using hfold

def firstLines (count : Nat) (text : String) : String :=
  String.ofList (Text.takeLines count text.toList)

theorem ofText_firstLines {text : String} {entries : List LineEntry}
    (h : LinesRead [] 1 (Text.lines text.toList) entries) (count : Nat) :
    ofText (firstLines count text) =
      ⟨(entries.take count).filterMap LineEntry.record?,
        (entries.take count).filterMap LineEntry.rejection?⟩ := by
  apply ofText_eq
  rw [firstLines, String.toList_ofList, Text.lines_takeLines]
  exact h.take count

/-- Each line of a text has its entry, and the file that is read has just what the entries keep and
reject. What is kept is well declared. A text in which rejected lines are blanked gives the same
records and no more than the other rejections, and the first lines of a text give the first records
and rejections. -/
theorem ofText_line_by_line (text : String) :
    (∃ entries, LinesRead [] 1 (Text.lines text.toList) entries ∧
      (ofText text).records = entries.filterMap LineEntry.record? ∧
      (ofText text).rejected = entries.filterMap LineEntry.rejection?) ∧
    WellDeclared (ofText text).records ∧
    (∀ numbers ⊆ (ofText text).rejected.map RejectedLine.line,
      (ofText (blanked numbers text)).records = (ofText text).records ∧
      (ofText (blanked numbers text)).rejected =
        (ofText text).rejected.filter fun rejection => rejection.line ∉ numbers) ∧
    (ofText (blanked ((ofText text).rejected.map RejectedLine.line) text)).rejected = [] ∧
    ∀ count, (ofText (firstLines count text)).records <+: (ofText text).records ∧
      (ofText (firstLines count text)).rejected <+: (ofText text).rejected := by
  obtain ⟨entries, hentries⟩ := exists_linesRead (Text.lines text.toList) [] 1
  have htext := ofText_eq hentries
  refine ⟨⟨entries, hentries, by rw [htext], by rw [htext]⟩, ofText_wellDeclared text, ?_, ?_, ?_⟩
  · intro numbers hnumbers
    rw [ofText_blanked hnumbers]
    exact ⟨rfl, rfl⟩
  · rw [ofText_blanked (List.Subset.refl _), List.filter_eq_nil_iff]
    intro rejection hmem
    simpa using ⟨rejection, hmem, rfl⟩
  · intro count
    have hfirst := List.take_prefix count entries
    rw [ofText_firstLines hentries, htext]
    exact ⟨hfirst.filterMap _, hfirst.filterMap _⟩

end TrafficFile

end Orchestration
