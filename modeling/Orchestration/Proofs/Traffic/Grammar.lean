import Orchestration.Proofs.Pairing
import Orchestration.Proofs.Traffic.Fields
import Orchestration.Proofs.Traffic.File

namespace Orchestration

/-- What can stand as a field: it is not empty, and it has neither blanks nor number signs. -/
structure IsField (text : List Char) : Prop extends Text.IsWord text where
  unmarked : '#' ∉ text

theorem isField_iff_all {text : List Char} :
    IsField text ↔ text ≠ [] ∧ text.all (fun c => !Text.isBlank c && c != '#') = true := by
  simp only [List.all_eq_true, Bool.and_eq_true, Bool.not_eq_true', bne_iff_ne]
  constructor
  · intro h
    exact ⟨h.ne_nil, fun c hc => ⟨h.not_blank c hc, ne_of_mem_of_not_mem hc h.unmarked⟩⟩
  · rintro ⟨hne, hall⟩
    exact ⟨⟨hne, fun c hc => (hall c hc).1⟩, fun hmark => (hall '#' hmark).2 rfl⟩

instance (text : List Char) : Decidable (IsField text) := decidable_of_iff _ isField_iff_all.symm

theorem IsField.append {front back : List Char} (hfront : IsField front) (hback : IsField back) :
    IsField (front ++ back) := by
  refine ⟨⟨List.append_ne_nil_of_left_ne_nil hfront.ne_nil _, ?_⟩, ?_⟩
  · exact List.forall_mem_append.mpr ⟨hfront.not_blank, hback.not_blank⟩
  · exact List.not_mem_append hfront.unmarked hback.unmarked

def TrafficParameters.texts : TrafficParameters → List String
  | .voip _ codec => [codec]
  | .webBrowsing _ _ => []
  | .dash protocol _ => [protocol]
  | .dataTransfer _ size _ _ => [size]

/-- The texts that stand in a field each. -/
def TrafficRecord.texts (r : TrafficRecord) : List String :=
  [r.source, r.destination, r.sourceIp, r.destinationIp] ++ r.parameters.texts

/-- A line can say what the record says. -/
structure TrafficRecord.Writable (r : TrafficRecord) : Prop extends r.InRange where
  texts : ∀ text ∈ r.texts, IsField text.toList

namespace TrafficFile

open Text (NumeralOf Blank Spaced words)

/-- A comment goes from a number sign to the end of the line. There may be none. -/
def IsComment (text : List Char) : Prop := ∀ c ∈ text.head?, c = '#'

/-- The line says what the record says, or nothing if there is no record. -/
inductive LineOf : Option TrafficRecord → List Char → Prop
  | blank {blanks comment : List Char} (hblanks : Blank blanks) (hcomment : IsComment comment) :
      LineOf none (blanks ++ comment)
  | record {r : TrafficRecord} {fields : List (List Char)} {body comment : List Char}
      (hfields : FieldsWritten r fields) (hbody : Spaced fields body)
      (hcomment : IsComment comment) : LineOf (some r) (body ++ comment)

/-- The text has a line for each record, in their order; other lines say nothing. -/
inductive TextOf : List TrafficRecord → List Char → Prop
  | last {record : Option TrafficRecord} {line : List Char} (hline : LineOf record line)
      (hbreak : '\n' ∉ line) : TextOf record.toList line
  | line {record : Option TrafficRecord} {records : List TrafficRecord}
      {line ending rest : List Char} (hline : LineOf record line) (hbreak : '\n' ∉ line)
      (hending : ending = ['\n'] ∨ ending = ['\r', '\n']) (hrest : TextOf records rest) :
      TextOf (record.toList ++ records) (line ++ ending ++ rest)

section Fields

variable {text : List Char} {r : TrafficRecord} {fields : List (List Char)}

theorem isField_of_numeralOf {n : Nat} (h : NumeralOf n text) : IsField text :=
  ⟨h.isWord, h.not_mem (by decide) (by decide)⟩

theorem isField_intercalate {pieces : List (List Char)} (hne : pieces ≠ [])
    (hpieces : ∀ piece ∈ pieces, IsField piece) : IsField (['-'].intercalate pieces) := by
  induction pieces with
  | nil => exact absurd rfl hne
  | cons piece pieces ih =>
      obtain ⟨hpiece, hrest⟩ := List.forall_mem_cons.mp hpieces
      cases pieces with
      | nil => rwa [List.intercalate_singleton]
      | cons next pieces =>
          have hhyphen : IsField ['-'] := by decide
          rw [List.intercalate_cons_cons]
          exact (hpiece.append hhyphen).append (ih (List.cons_ne_nil _ _) hrest)

theorem isField_of_idsWritten {ids : List Nat} (h : IdsWritten ids text) : IsField text := by
  cases h with
  | none => decide
  | @joined ids numerals hne hnumerals =>
      apply isField_intercalate
      · rintro rfl
        exact hne (List.forall₂_nil_right_iff.mp hnumerals)
      · intro numeral hmem
        obtain ⟨n, -, hn⟩ := exists_of_mem_right hnumerals hmem
        exact isField_of_numeralOf hn

theorem isField_of_mem_names {kind : TrafficKind} :
    ∀ name ∈ kind.names, IsField name.toList := by
  cases kind <;> decide

theorem isField_of_parametersWritten {parameters : TrafficParameters}
    (h : ParametersWritten parameters fields)
    (htexts : ∀ text ∈ parameters.texts, IsField text.toList) :
    ∀ field ∈ fields, IsField field := by
  cases h with
  | voip hport =>
      simpa [TrafficParameters.texts, isField_of_numeralOf hport] using htexts
  | webBrowsing hruns hparallel =>
      simp [isField_of_numeralOf hruns, isField_of_numeralOf hparallel]
  | dash hport =>
      simpa [TrafficParameters.texts, isField_of_numeralOf hport] using htexts
  | dataTransfer hport htos hmtu =>
      simpa [TrafficParameters.texts, isField_of_numeralOf hport, isField_of_numeralOf htos,
        isField_of_numeralOf hmtu] using htexts

theorem isField_of_fieldsWritten (h : FieldsWritten r fields)
    (htexts : ∀ text ∈ r.texts, IsField text.toList) : ∀ field ∈ fields, IsField field := by
  obtain ⟨hcommon, hparameters⟩ := List.forall_mem_append.mp htexts
  cases h with
  | mk hid hname hduration hlaunched hfinished hdelay hextra =>
      simp only [List.forall_mem_cons] at hcommon ⊢
      obtain ⟨hsource, hdestination, hsourceIp, hdestinationIp, -⟩ := hcommon
      exact ⟨isField_of_numeralOf hid, isField_of_mem_names _ hname, hsource, hdestination,
        isField_of_numeralOf hduration, isField_of_idsWritten hlaunched,
        isField_of_idsWritten hfinished, isField_of_numeralOf hdelay, hsourceIp, hdestinationIp,
        isField_of_parametersWritten hextra hparameters⟩

theorem mem_of_parametersWritten {parameters : TrafficParameters}
    (h : ParametersWritten parameters fields) :
    ∀ text ∈ parameters.texts, text.toList ∈ fields := by
  cases h <;> simp [TrafficParameters.texts]

theorem mem_of_fieldsWritten (h : FieldsWritten r fields) :
    ∀ text ∈ r.texts, text.toList ∈ fields := by
  intro text hmem
  cases h with
  | mk _ _ _ _ _ _ hextra =>
      rcases List.mem_append.mp hmem with hmem | hmem
      · simp only [List.mem_cons, List.not_mem_nil, or_false] at hmem
        rcases hmem with rfl | rfl | rfl | rfl <;> simp
      · simp [mem_of_parametersWritten hextra text hmem]

end Fields

/-- The words of a line before its comment. -/
def fieldsOf (line : List Char) : List (List Char) := words (line.takeWhile (· ≠ '#'))

section Line

variable {number : Nat} {line : List Char} {r : TrafficRecord}

theorem content_eq_nil_iff : content line = [] ↔ fieldsOf line = [] := Text.trim_eq_nil_iff

theorem readRecord_content :
    readRecord number (content line) = readFields number (fieldsOf line) := by
  rw [readRecord, content, Text.words_trim, fieldsOf]

theorem fieldsOf_append {body comment : List Char} (hbody : '#' ∉ body)
    (hcomment : IsComment comment) : fieldsOf (body ++ comment) = words body := by
  have hkeep : ∀ c ∈ body, decide (c ≠ '#') = true := by
    intro c hc
    simpa using ne_of_mem_of_not_mem hc hbody
  rw [fieldsOf, List.takeWhile_append_of_pos hkeep]
  cases comment with
  | nil => rw [List.takeWhile_nil, List.append_nil]
  | cons c rest =>
      obtain rfl : c = '#' := hcomment c rfl
      simp

theorem exists_comment (line : List Char) :
    ∃ body comment, line = body ++ comment ∧ '#' ∉ body ∧ IsComment comment := by
  refine ⟨line.takeWhile (· ≠ '#'), line.dropWhile (· ≠ '#'),
    List.takeWhile_append_dropWhile.symm, fun hmem => ?_, fun c hc => ?_⟩
  · simpa using List.mem_takeWhile_imp hmem
  · have hnot := List.head?_dropWhile_not (· ≠ '#') line
    rw [hc] at hnot
    simpa using hnot

theorem isField_of_mem_fieldsOf : ∀ field ∈ fieldsOf line, IsField field := by
  obtain ⟨body, comment, rfl, hbody, hcomment⟩ := exists_comment line
  rw [fieldsOf_append hbody hcomment]
  have hspaced : Spaced (words body) body := Text.words_eq_iff.mp rfl
  intro field hfield
  refine ⟨hspaced.isWord field hfield, fun hmark => hbody ?_⟩
  exact (hspaced.mem_iff rfl).mpr ⟨field, hfield, hmark⟩

/-- A carriage return at the end is blank or stands in the comment. -/
theorem fieldsOf_dropReturn : fieldsOf (Text.dropReturn line) = fieldsOf line := by
  rw [Text.dropReturn]
  split
  next hlast =>
    obtain ⟨front, rfl⟩ := List.getLast?_eq_some_iff.mp hlast
    rw [List.dropLast_concat]
    obtain ⟨body, comment, rfl, hbody, hcomment⟩ := exists_comment front
    have hreturn : Blank ['\r'] := by
      rintro c hc
      rw [List.mem_singleton.mp hc]
      rfl
    rw [fieldsOf_append hbody hcomment]
    cases comment with
    | nil =>
        have hlonger : '#' ∉ body ++ ['\r'] := List.not_mem_append hbody (by decide)
        rw [List.append_nil, ← List.append_nil (body ++ _), fieldsOf_append hlonger hcomment,
          Text.words_append_blank hreturn]
    | cons c rest =>
        rw [List.append_assoc, fieldsOf_append hbody]
        exact hcomment
  next => rfl

theorem lineOf_none_iff : LineOf none line ↔ fieldsOf line = [] := by
  constructor
  · rintro ⟨hblanks, hcomment⟩
    rw [fieldsOf_append _ hcomment]
    · exact Text.words_eq_iff.mpr (.blank hblanks)
    · exact fun hmark => absurd (hblanks '#' hmark) (by decide)
  · intro hnone
    obtain ⟨body, comment, rfl, hbody, hcomment⟩ := exists_comment line
    rw [fieldsOf_append hbody hcomment] at hnone
    cases Text.words_eq_iff.mp hnone with
    | blank hblanks => exact .blank hblanks hcomment

theorem lineOf_some_iff (hr : r.Writable) :
    LineOf (some r) line ↔ FieldsWritten r (fieldsOf line) := by
  constructor
  · intro h
    cases h with
    | @record _ fields body comment hfields hbody hcomment =>
        have hunmarked : '#' ∉ body := by
          intro hmark
          obtain ⟨field, hfield, hmark⟩ := (hbody.mem_iff rfl).mp hmark
          exact (isField_of_fieldsWritten hfields hr.texts field hfield).unmarked hmark
        rwa [fieldsOf_append hunmarked hcomment, hbody.words_eq]
  · intro hfields
    obtain ⟨body, comment, rfl, hbody, hcomment⟩ := exists_comment line
    rw [fieldsOf_append hbody hcomment] at hfields
    exact .record hfields (Text.words_eq_iff.mp rfl) hcomment

theorem readRecord_eq_ok_iff :
    readRecord number (content line) = .ok r ↔ r.Writable ∧ LineOf (some r) line := by
  rw [readRecord_content, readFields_eq_ok_iff]
  constructor
  · rintro ⟨hrange, hfields⟩
    have hr : r.Writable := ⟨hrange, fun text hmem =>
      isField_of_mem_fieldsOf _ (mem_of_fieldsWritten hfields text hmem)⟩
    exact ⟨hr, (lineOf_some_iff hr).mpr hfields⟩
  · rintro ⟨hr, hline⟩
    exact ⟨hr.toInRange, (lineOf_some_iff hr).mp hline⟩

theorem lineOf_dropReturn_iff {record : Option TrafficRecord} (h : ∀ r ∈ record, r.Writable) :
    LineOf record (Text.dropReturn line) ↔ LineOf record line := by
  cases record with
  | none => rw [lineOf_none_iff, lineOf_none_iff, fieldsOf_dropReturn]
  | some r => rw [lineOf_some_iff (h r rfl), lineOf_some_iff (h r rfl), fieldsOf_dropReturn]

theorem readRecord_refuses (number : Nat) (line : List Char) :
    (∃ r, r.Writable ∧ LineOf (some r) line) ∨
      ∃ fault, readRecord number (content line) = .error (.malformedRecord number fault) := by
  cases hread : readRecord number (content line) with
  | ok r => exact .inl ⟨r, readRecord_eq_ok_iff.mp hread⟩
  | error failure =>
      rw [readRecord_content] at hread
      obtain ⟨fault, rfl⟩ := onlyMalformed_readFields _ failure hread
      exact .inr ⟨fault, rfl⟩

end Line

section Text

variable {ids : List Nat} {number : Nat} {line : List Char}

theorem LineRead.lineOf {entry : LineEntry} (h : LineRead ids number line entry)
    (hkept : entry.rejection? = none) :
    LineOf entry.record? line ∧ ∀ r ∈ entry.record?, r.Writable := by
  cases h with
  | blank hcontent =>
      refine ⟨lineOf_none_iff.mpr (content_eq_nil_iff.mp hcontent), ?_⟩
      simp
  | kept _ hread _ =>
      obtain ⟨hr, hline⟩ := readRecord_eq_ok_iff.mp hread
      exact ⟨hline, by simpa using hr⟩
  | unreadable | undeclarable => cases hkept

theorem exists_lineRead_of_lineOf {record : Option TrafficRecord} {before : List TrafficRecord}
    (later : List TrafficRecord) (h : LineOf record line) (hwritable : ∀ r ∈ record, r.Writable)
    (hdeclared : WellDeclared (before ++ (record.toList ++ later))) (number : Nat) :
    ∃ entry, LineRead (before.map TrafficRecord.id) number line entry ∧
      entry.record? = record ∧ entry.rejection? = none := by
  cases record with
  | none => exact ⟨.blank, .blank (content_eq_nil_iff.mpr (lineOf_none_iff.mp h)), rfl, rfl⟩
  | some r =>
      have hr := hwritable r rfl
      have hcontent : content line ≠ [] := by
        intro hnil
        have hfields := (lineOf_some_iff hr).mp h
        rw [content_eq_nil_iff.mp hnil] at hfields
        cases hfields
      have hcheck : checkDeclaration (before.map TrafficRecord.id).contains r.id r.waitLaunched
          r.waitFinished = .ok () := by
        rw [checkDeclaration_eq_ok_iff]
        constructor
        · have hids := hdeclared.ids
          rw [List.map_append, List.nodup_append] at hids
          have hnew : r.id ∉ before.map TrafficRecord.id := fun hmem =>
            hids.2.2 r.id hmem r.id (by simp) rfl
          simpa using hnew
        · intro id hid
          obtain ⟨hlt, hmem⟩ := hdeclared.waits before r later rfl id hid
          exact ⟨hlt, by simpa using hmem⟩
      exact ⟨.kept r, .kept hcontent (readRecord_eq_ok_iff.mpr ⟨hr, h⟩) hcheck, rfl, rfl⟩

theorem record?_cons (entry : LineEntry) (entries : List LineEntry) :
    (entry :: entries).filterMap LineEntry.record? =
      entry.record?.toList ++ entries.filterMap LineEntry.record? := by
  simp only [List.filterMap_eq_flatMap_toList, List.flatMap_cons]

theorem textOf_of_linesRead {text : List Char} {entries : List LineEntry}
    (h : LinesRead ids number (Text.lines text) entries)
    (hkept : ∀ entry ∈ entries, entry.rejection? = none) :
    TextOf (entries.filterMap LineEntry.record?) text ∧
      ∀ r ∈ entries.filterMap LineEntry.record?, r.Writable := by
  induction text using Text.lines_induction generalizing ids number entries with
  | last line hbreak =>
      rw [Text.lines_of_not_mem hbreak] at h
      split at h
      next hempty =>
        obtain rfl := List.isEmpty_iff.mp hempty
        cases h with
        | nil =>
            have hblank : LineOf none [] := lineOf_none_iff.mpr rfl
            exact ⟨.last hblank hbreak, List.forall_mem_nil _⟩
      next =>
        cases h with
        | @cons _ _ _ _ entry _ hline hrest =>
            cases hrest with
            | nil =>
                obtain ⟨hlineOf, hwritable⟩ := hline.lineOf (hkept entry List.mem_cons_self)
                rw [record?_cons, List.filterMap_nil, List.append_nil]
                exact ⟨.last hlineOf hbreak, by simpa using hwritable⟩
  | append line rest hbreak ih =>
      rw [Text.lines_append hbreak] at h
      cases h with
      | cons hline hrest =>
          obtain ⟨hentry, hentries⟩ := List.forall_mem_cons.mp hkept
          obtain ⟨hlineOf, hwritable⟩ := hline.lineOf hentry
          obtain ⟨htextOf, hothers⟩ := ih hrest hentries
          rw [lineOf_dropReturn_iff hwritable] at hlineOf
          rw [record?_cons, List.append_cons]
          refine ⟨.line hlineOf hbreak (.inl rfl) htextOf, List.forall_mem_append.mpr ⟨?_, hothers⟩⟩
          simpa using hwritable

theorem exists_linesRead_of_textOf {text : List Char} {records : List TrafficRecord}
    (before : List TrafficRecord) (h : TextOf records text) (hwritable : ∀ r ∈ records, r.Writable)
    (hdeclared : WellDeclared (before ++ records)) (number : Nat) :
    ∃ entries, LinesRead (before.map TrafficRecord.id) number (Text.lines text) entries ∧
      entries.filterMap LineEntry.record? = records ∧
      ∀ entry ∈ entries, entry.rejection? = none := by
  induction h generalizing before number with
  | @last record line hline hbreak =>
      have hrecord : ∀ r ∈ record, r.Writable := by simpa using hwritable
      obtain ⟨entry, hentry, rfl, hkept⟩ := exists_lineRead_of_lineOf [] hline hrecord
        (by simpa using hdeclared) number
      rw [Text.lines_of_not_mem hbreak]
      split
      next hempty =>
        obtain rfl := List.isEmpty_iff.mp hempty
        cases hentry with
        | blank => exact ⟨[], .nil _ _, rfl, List.forall_mem_nil _⟩
        | kept hcontent | unreadable hcontent | undeclarable hcontent => exact absurd rfl hcontent
      next =>
        exact ⟨[entry], .cons hentry (.nil _ _), by simp [record?_cons], by simpa using hkept⟩
  | @line record records line ending rest hline hbreak hending _ ih =>
      obtain ⟨hrecord, hothers⟩ := List.forall_mem_append.mp hwritable
      have hrecord : ∀ r ∈ record, r.Writable := by simpa using hrecord
      obtain ⟨raw, hraw, htext, hlineOf⟩ : ∃ raw, '\n' ∉ raw ∧
          line ++ ending ++ rest = raw ++ '\n' :: rest ∧ LineOf record (Text.dropReturn raw) := by
        rcases hending with rfl | rfl
        · exact ⟨line, hbreak, by simp, (lineOf_dropReturn_iff hrecord).mpr hline⟩
        · refine ⟨line ++ ['\r'], List.not_mem_append hbreak (by decide), by simp, ?_⟩
          simpa [Text.dropReturn] using hline
      obtain ⟨entry, hentry, rfl, hkept⟩ :=
        exists_lineRead_of_lineOf records hlineOf hrecord hdeclared number
      rw [← List.append_assoc] at hdeclared
      obtain ⟨entries, hentries, rfl, hallKept⟩ := ih _ hothers hdeclared (number + 1)
      rw [List.map_append] at hentries
      rw [htext, Text.lines_append hraw]
      exact ⟨entry :: entries, .cons hentry hentries, record?_cons entry entries,
        List.forall_mem_cons.mpr ⟨hkept, hallKept⟩⟩

theorem LinesRead.exists_lineRead {lines : List (List Char)} {entries : List LineEntry}
    (h : LinesRead ids number lines entries) :
    ∀ item ∈ lines.zipIdx number, ∃ earlier, ∃ entry ∈ entries,
      LineRead earlier item.2 item.1 entry := by
  induction h with
  | nil => simp
  | cons hline _ ih =>
      rw [List.zipIdx_cons, List.forall_mem_cons]
      refine ⟨⟨_, _, List.mem_cons_self, hline⟩, fun item hitem => ?_⟩
      obtain ⟨earlier, entry, hentry, hread⟩ := ih item hitem
      exact ⟨earlier, entry, List.mem_cons_of_mem _ hentry, hread⟩

/-- A line that says nothing and is the line of no record is rejected as malformed. -/
theorem mem_rejected_of_lines (text : String) :
    ∀ item ∈ (Text.lines text.toList).zipIdx 1,
      LineOf none item.1 ∨ (∃ r, r.Writable ∧ LineOf (some r) item.1) ∨
        ∃ fault, ⟨item.2, String.ofList (content item.1), .malformedRecord item.2 fault⟩ ∈
          (ofText text).rejected := by
  intro item hitem
  obtain ⟨entries, hentries⟩ := exists_linesRead (Text.lines text.toList) [] 1
  obtain ⟨earlier, entry, hentry, hread⟩ := hentries.exists_lineRead item hitem
  rw [ofText_eq hentries]
  cases hread with
  | blank hcontent => exact .inl (lineOf_none_iff.mpr (content_eq_nil_iff.mp hcontent))
  | kept _ hread _ | undeclarable _ hread _ =>
      exact .inr (.inl ⟨_, readRecord_eq_ok_iff.mp hread⟩)
  | @unreadable failure _ hread =>
      rw [readRecord_content] at hread
      obtain ⟨fault, rfl⟩ := onlyMalformed_readFields _ failure hread
      exact .inr (.inr ⟨fault, List.mem_filterMap.mpr ⟨_, hentry, rfl⟩⟩)

end Text

section Writing

variable {fields : List (List Char)}

theorem numeralOf_toDigits (n : Nat) : NumeralOf n (Nat.toDigits 10 n) := ⟨0, .inl rfl⟩

theorem exists_idsWritten (ids : List Nat) : ∃ text, IdsWritten ids text := by
  cases ids with
  | nil => exact ⟨_, .none⟩
  | cons id ids =>
      have hnumerals : List.Forall₂ NumeralOf (id :: ids) ((id :: ids).map (Nat.toDigits 10)) := by
        rw [List.forall₂_map_right_iff, List.forall₂_same]
        exact fun n _ => numeralOf_toDigits n
      exact ⟨_, .joined (List.cons_ne_nil _ _) hnumerals⟩

theorem exists_parametersWritten (parameters : TrafficParameters) :
    ∃ extra, ParametersWritten parameters extra := by
  cases parameters with
  | voip port codec => exact ⟨_, .voip (numeralOf_toDigits port)⟩
  | webBrowsing runs parallelRuns =>
      exact ⟨_, .webBrowsing (numeralOf_toDigits runs) (numeralOf_toDigits parallelRuns)⟩
  | dash protocol tornadoPort => exact ⟨_, .dash (numeralOf_toDigits tornadoPort)⟩
  | dataTransfer port size tos mtu =>
      exact ⟨_, .dataTransfer (numeralOf_toDigits port) (numeralOf_toDigits tos)
        (numeralOf_toDigits mtu)⟩

theorem exists_fieldsWritten (r : TrafficRecord) : ∃ fields, FieldsWritten r fields := by
  have hname : r.kind.name ∈ r.kind.names := by
    cases r.kind <;> decide
  obtain ⟨launched, hlaunched⟩ := exists_idsWritten r.waitLaunched
  obtain ⟨finished, hfinished⟩ := exists_idsWritten r.waitFinished
  obtain ⟨extra, hextra⟩ := exists_parametersWritten r.parameters
  exact ⟨_, .mk (numeralOf_toDigits r.id) hname (numeralOf_toDigits r.duration) hlaunched hfinished
    (numeralOf_toDigits r.delay) hextra⟩

theorem exists_spaced_line (h : ∀ field ∈ fields, IsField field) :
    ∃ body, Spaced fields body ∧ '\n' ∉ body := by
  induction fields with
  | nil => exact ⟨[], .blank (List.forall_mem_nil _), List.not_mem_nil⟩
  | cons field fields ih =>
      obtain ⟨hfield, hrest⟩ := List.forall_mem_cons.mp h
      obtain ⟨body, hbody, hbreak⟩ := ih hrest
      have hnot : '\n' ∉ field := fun hmem => absurd (hfield.not_blank _ hmem) (by decide)
      refine ⟨field ++ ' ' :: body, .first hfield.toIsWord ?_ ?_, ?_⟩
      · rintro _ ⟨⟩
        rfl
      · rw [← Text.words_eq_iff, Text.words_cons_of_blank rfl]
        exact hbody.words_eq
      · exact List.not_mem_append hnot (List.not_mem_cons_of_ne_of_not_mem (by decide) hbreak)

theorem exists_textOf {records : List TrafficRecord} (h : ∀ r ∈ records, r.Writable) :
    ∃ text, TextOf records text := by
  have hnone : IsComment [] := by simp [IsComment]
  induction records with
  | nil => exact ⟨[], .last (lineOf_none_iff.mpr rfl) List.not_mem_nil⟩
  | cons r records ih =>
      obtain ⟨hr, hrest⟩ := List.forall_mem_cons.mp h
      obtain ⟨rest, htext⟩ := ih hrest
      obtain ⟨fields, hfields⟩ := exists_fieldsWritten r
      obtain ⟨body, hbody, hbreak⟩ := exists_spaced_line (isField_of_fieldsWritten hfields hr.texts)
      have hline : LineOf (some r) (body ++ []) := .record hfields hbody hnone
      rw [List.append_nil] at hline
      exact ⟨_, .line hline hbreak (.inl rfl) htext⟩

end Writing

theorem ofText_eq_iff {text : String} {records : List TrafficRecord} :
    ofText text = ⟨records, []⟩ ↔
      WellDeclared records ∧ (∀ r ∈ records, r.Writable) ∧ TextOf records text.toList := by
  constructor
  · intro h
    obtain ⟨entries, hentries⟩ := exists_linesRead (Text.lines text.toList) [] 1
    have hdeclared := ofText_wellDeclared text
    rw [ofText_eq hentries, TrafficFile.mk.injEq, List.filterMap_eq_nil_iff] at h
    rw [ofText_eq hentries] at hdeclared
    obtain ⟨rfl, hkept⟩ := h
    obtain ⟨htext, hwritable⟩ := textOf_of_linesRead hentries hkept
    exact ⟨hdeclared, hwritable, htext⟩
  · rintro ⟨hdeclared, hwritable, htext⟩
    obtain ⟨entries, hentries, rfl, hkept⟩ :=
      exists_linesRead_of_textOf [] htext hwritable hdeclared 1
    rw [ofText_eq hentries, List.filterMap_eq_nil_iff.mpr hkept]

/-- A text is read as some records with nothing rejected exactly when the records are well declared
and writable and the text has a line for each of them, and there is such a text for all records of
this kind. Each line that is read has the form of its record. All other lines are refused as
malformed under their number, those apart that say nothing. -/
theorem ofText_reads_back :
    (∀ text records, ofText text = ⟨records, []⟩ ↔
      WellDeclared records ∧ (∀ r ∈ records, r.Writable) ∧ TextOf records text.toList) ∧
    (∀ records, (∃ text, ofText text = ⟨records, []⟩) ↔
      WellDeclared records ∧ ∀ r ∈ records, r.Writable) ∧
    (∀ number line r, readRecord number (content line) = .ok r ↔
      r.Writable ∧ LineOf (some r) line) ∧
    (∀ number line, (∃ r, r.Writable ∧ LineOf (some r) line) ∨
      ∃ fault, readRecord number (content line) = .error (.malformedRecord number fault)) ∧
    ∀ text : String, ∀ item ∈ (Text.lines text.toList).zipIdx 1,
      LineOf none item.1 ∨ (∃ r, r.Writable ∧ LineOf (some r) item.1) ∨
        ∃ fault, ⟨item.2, String.ofList (content item.1), .malformedRecord item.2 fault⟩ ∈
          (ofText text).rejected := by
  refine ⟨fun text records => ofText_eq_iff, fun records => ?_,
    fun number line r => readRecord_eq_ok_iff, readRecord_refuses, mem_rejected_of_lines⟩
  constructor
  · rintro ⟨text, h⟩
    obtain ⟨hdeclared, hwritable, -⟩ := ofText_eq_iff.mp h
    exact ⟨hdeclared, hwritable⟩
  · rintro ⟨hdeclared, hwritable⟩
    obtain ⟨text, htext⟩ := exists_textOf hwritable
    refine ⟨String.ofList text, ofText_eq_iff.mpr ⟨hdeclared, hwritable, ?_⟩⟩
    rwa [String.toList_ofList]

example :
    ofText ("# a call, then a transfer\r\n 1 voip a b 9 None None 0 ip ip 8001 G.711\n\n" ++
        "2\tiperf3  b a +9 1 1-01 007 ip ip 5001 10M 0 1400 # later") =
      ⟨[⟨1, "a", "b", 9, [], [], 0, "ip", "ip", .voip 8001 "G.711"⟩,
        ⟨2, "b", "a", 9, [1], [1, 1], 7, "ip", "ip", .dataTransfer 5001 "10M" 0 1400⟩], []⟩ := by
  cbv

end TrafficFile

end Orchestration
