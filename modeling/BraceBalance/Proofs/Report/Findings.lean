import BraceBalance.Proofs.Cache.Record
import BraceBalance.Proofs.Report.Marks
import BraceBalance.Proofs.Scan.Chunks
import BraceBalance.Proofs.Text.Pieces
import BraceBalance.Report.Summary

/-!
# Proofs/Report/Findings — the report of a scan is read back

    verdict ──summary──▸ lines ──words──▸ fields ──read?──▸ findings

The first line of a report tells its class by the number of its words; the openers are listed in the
lines up to the first empty one.  The source lines of the context stand behind it and are not read
(`Summary.exists_read`), so that two reports with the same text have the same findings, whatever
their sources.  The issues of a verdict are those of the same openers (`Issue.Reports`).
-/

namespace BraceBalance

/-- What a report says of a verdict. -/
structure Findings where
  kind : VerdictKind
  closing : Position := Position.none
  count : Nat := 0
  /-- The openers that are listed. -/
  listed : List Opener := []
  deriving DecidableEq

/-- What the report of a verdict says of it. -/
def Verdict.findings (v : Verdict) (o : Options) : Findings :=
  ⟨v.kind, v.closing, v.count, v.tail o.tail.toInt⟩

/-- A verdict without openers has its kind and its position for findings. -/
theorem Verdict.findings_of_opened_nil {v : Verdict} (h : v.opened = []) (o : Options) :
    v.findings o = { kind := v.kind, closing := v.closing } := by
  rw [findings, tail, count, h, List.drop_nil, List.length_nil]

/-! ## Reading a report

The classes differ in how many words their first line has: one, two or four. -/

namespace Summary

/-- The words of a line. -/
def words (line : Bytes) : List Bytes := Bytes.splitOn 0x20 line

/-- The position of a line and a column in decimal. -/
def position? (line column : Bytes) : Option Position := do
  return ⟨← Records.int? line, ← Records.int? column⟩

/-- The opener that a line lists. -/
def opener? (line : Bytes) : Option Opener :=
  match words line with
  | [_, _, _, line, column, text] => do return ⟨← position? line column, Kind.ofText text⟩
  | _ => none

/-- The openers listed in the first lines. -/
def openers : List Bytes → List Opener
  | [] => []
  | line :: lines =>
    match opener? line with
    | some o => o :: openers lines
    | none => []

/-- What a report says whose first line has these words, with these lines behind it. -/
def findings? : List Bytes → List Bytes → Option Findings
  | [_], _ => some { kind := .allMatched }
  | [_, count], lines => do
    let count ← Records.int? count
    return { kind := .unmatchedOpen, count := count.toNat, listed := openers lines }
  | [_, _, line, column], _ => do
    return { kind := .unexpectedClosing, closing := ← position? line column }
  | _, _ => none

/-- What a report says. -/
def read? (text : Bytes) : Option Findings :=
  match Bytes.splitOn Lines.lf text with
  | [] => none
  | header :: lines => findings? (words header) lines

/-! ## Lines of words -/

/-- These words on a line. -/
def line (ws : List Bytes) : Bytes := Bytes.joinWith [0x20] ws

theorem line_singleton (w : Bytes) : line [w] = w :=
  Bytes.joinWith_singleton w

theorem line_cons_cons (v w : Bytes) (ws : List Bytes) :
    line (v :: w :: ws) = v ++ 0x20 :: line (w :: ws) := Bytes.joinWith_cons_cons v w ws

/-- Neither blanks nor line breaks. -/
def IsWord (w : Bytes) : Prop := (0x20 : UInt8) ∉ w ∧ Lines.lf ∉ w

instance (w : Bytes) : Decidable (IsWord w) := inferInstanceAs (Decidable (_ ∧ _))

/-- A number is a word. -/
theorem isWord_ofNat (n : Nat) : IsWord (Bytes.ofNat n) :=
  ⟨Bytes.not_mem_ofNat (by decide) n, Bytes.not_mem_ofNat (by decide) n⟩

/-- A number with its sign is a word. -/
theorem isWord_ofInt (n : Int) : IsWord (Bytes.ofInt n) :=
  ⟨Bytes.not_mem_ofInt (by decide) (by decide) n, Bytes.not_mem_ofInt (by decide) (by decide) n⟩

variable {w : Bytes} {ws : List Bytes}

/-- Words on a line are read back. -/
theorem words_line (h : ∀ v ∈ w :: ws, IsWord v) : words (line (w :: ws)) = w :: ws :=
  Bytes.splitOn_joinWith fun v hv => (h v hv).1

/-- A line of words ends at the line break behind it. -/
theorem splitOn_line (h : ∀ v ∈ ws, IsWord v) (rest : Bytes) :
    Bytes.splitOn Lines.lf (line ws ++ Lines.lf :: rest) =
      line ws :: Bytes.splitOn Lines.lf rest := by
  refine Bytes.splitOn_append_of_not_mem (fun hmem => ?_) rest
  obtain hblank | ⟨v, hv, hmem⟩ := Bytes.exists_mem_of_mem_joinWith hmem
  · exact absurd hblank (by decide)
  · exact (h v hv).2 hmem

/-- A position is read back from its numbers. -/
@[simp] theorem position?_ofInt (p : Position) :
    position? (Bytes.ofInt p.line) (Bytes.ofInt p.column) = some p := by
  simp [position?]

/-! ## Listed openers

The line of an opener begins with two empty words, so it is never empty itself, and the list is read
up to the empty line behind it. -/

/-- The marker of an opener that a scan leaves is a word. -/
theorem isWord_of_mem_opened {src : Bytes} {o : Opener} (h : o ∈ (scan src).opened) :
    IsWord o.kind.text := by
  rcases fits_of_mem_opened h with ⟨hkind, -⟩ | ⟨hkind, -⟩ <;> rw [hkind] <;> decide

/-- The words of the line of an opener. -/
def openerWords (o : Opener) : List Bytes :=
  ["", "", "AT", Bytes.ofInt o.position.line, Bytes.ofInt o.position.column, o.kind.text]

/-- The line of an opener is a line of words. -/
theorem openerLine_eq (o : Opener) (rest : Bytes) :
    openerLine o ++ rest = line (openerWords o) ++ Lines.lf :: rest := by
  simp only [openerLine, openerWords, line_cons_cons, line_singleton, List.append_assoc,
    List.cons_append]
  rfl

theorem isWord_of_mem_openerWords {o : Opener} (h : IsWord o.kind.text) :
    ∀ w ∈ openerWords o, IsWord w := by
  have hnil : IsWord [] := by decide
  simp only [openerWords, List.forall_mem_cons]
  exact ⟨hnil, hnil, by decide, isWord_ofInt _, isWord_ofInt _, h, List.forall_mem_nil _⟩

/-- An opener is read back from its line. -/
theorem opener?_line {o : Opener} (h : IsWord o.kind.text) :
    opener? (line (openerWords o)) = some o := by
  have hwords : words (line (openerWords o)) = openerWords o :=
    words_line (isWord_of_mem_openerWords h)
  rw [opener?, hwords]
  simp only [openerWords, position?_ofInt, Kind.ofText_text]
  rfl

/-- **The openers are read back**, up to the empty line. -/
theorem openers_flatMap {listed : List Opener} (h : ∀ o ∈ listed, IsWord o.kind.text)
    (rest : Bytes) :
    openers (Bytes.splitOn Lines.lf (listed.flatMap openerLine ++ Lines.lf :: rest)) = listed := by
  induction listed with
  | nil =>
    rw [List.flatMap_nil, List.nil_append, Bytes.splitOn_cons_self]
    rfl
  | cons o listed ih =>
    obtain ⟨ho, hlisted⟩ := List.forall_mem_cons.1 h
    rw [List.flatMap_cons, List.append_assoc, openerLine_eq,
      splitOn_line (isWord_of_mem_openerWords ho), openers, opener?_line ho]
    exact congrArg (o :: ·) (ih hlisted)

/-! ## Reports of scans -/

/-- A report is read by the words of its first line. -/
theorem read?_line (h : ∀ v ∈ w :: ws, IsWord v) (rest : Bytes) :
    read? (line (w :: ws) ++ Lines.lf :: rest) =
      findings? (w :: ws) (Bytes.splitOn Lines.lf rest) := by
  rw [read?, splitOn_line h]
  simp only [words_line h]

/-- The report of a brace too many is read back. -/
theorem read?_unexpectedClosing (closing : Position) :
    read? ("UNEXPECTED_CLOSING at " ++ Bytes.ofInt closing.line ++ " " ++
      Bytes.ofInt closing.column ++ "\n") = some { kind := .unexpectedClosing, closing } := by
  have hline : utf8 "UNEXPECTED_CLOSING at " ++ Bytes.ofInt closing.line ++ utf8 " " ++
      Bytes.ofInt closing.column ++ utf8 "\n" =
      line ["UNEXPECTED_CLOSING", "at", Bytes.ofInt closing.line, Bytes.ofInt closing.column] ++
        [Lines.lf] := by
    simp only [line_cons_cons, line_singleton, List.append_assoc, List.cons_append]
    rfl
  have hwords : ∀ v ∈ [utf8 "UNEXPECTED_CLOSING", "at", Bytes.ofInt closing.line,
      Bytes.ofInt closing.column], IsWord v := by
    simp only [List.forall_mem_cons]
    exact ⟨by decide, by decide, isWord_ofInt _, isWord_ofInt _, List.forall_mem_nil _⟩
  rw [hline, read?_line hwords, findings?, position?_ofInt]
  rfl

theorem unmatched_eq (v : Verdict) (lines : List Bytes) (o : Options) :
    unmatched v lines o =
      "UNMATCHED_OPEN_COUNT " ++ Bytes.ofNat v.count ++ "\n" ++
        (v.tail o.tail.toInt).flatMap openerLine ++ "\n" ++
        ("Context around last unmatched open:\n" ++
          context ((v.last?.map (·.position.line)).getD 0) lines o) := by
  simp only [unmatched, List.append_assoc]
  rfl

/-- The report of openers is read back, whatever lines stand behind the empty one. -/
theorem read?_unmatched {v : Verdict} (h : ∀ opener ∈ v.opened, IsWord opener.kind.text)
    (lines : List Bytes) (o : Options) :
    read? (unmatched v lines o) =
      some { kind := .unmatchedOpen, count := v.count, listed := v.tail o.tail.toInt } := by
  rw [unmatched_eq]
  generalize (utf8 "Context around last unmatched open:\n" ++ _) = rest
  have hline : utf8 "UNMATCHED_OPEN_COUNT " ++ Bytes.ofNat v.count ++ utf8 "\n" ++
      (v.tail o.tail.toInt).flatMap openerLine ++ utf8 "\n" ++ rest =
      line ["UNMATCHED_OPEN_COUNT", Bytes.ofNat v.count] ++
        Lines.lf :: ((v.tail o.tail.toInt).flatMap openerLine ++ Lines.lf :: rest) := by
    simp only [line_cons_cons, line_singleton, List.append_assoc, List.cons_append]
    rfl
  have hwords : ∀ w ∈ [utf8 "UNMATCHED_OPEN_COUNT", Bytes.ofNat v.count], IsWord w := by
    simp only [List.forall_mem_cons]
    exact ⟨by decide, isWord_ofNat _, List.forall_mem_nil _⟩
  have hlisted : ∀ opener ∈ v.tail o.tail.toInt, IsWord opener.kind.text :=
    fun opener hopener => h opener (List.mem_of_mem_drop hopener)
  rw [hline, read?_line hwords, findings?, openers_flatMap hlisted, Records.int?_ofNat]
  rfl

end Summary

/-- A scan has one of three verdicts. -/
theorem scan_cases (src : Bytes) :
    scan src = .allMatched ∨ (∃ closing, scan src = .unexpectedClosing closing) ∨
      ∃ opened, opened ≠ [] ∧ scan src = .unmatchedOpen opened := by
  rw [scan_eq_verdict]
  generalize State.start.outcome (Utf8.decode src) = outcome
  cases outcome with
  | halted closing => exact .inr (.inl ⟨closing, rfl⟩)
  | ended s =>
    rw [Outcome.verdict_ended]
    split_ifs with hnone
    · exact .inl rfl
    · exact .inr (.inr ⟨_, hnone, rfl⟩)

/-- **The report of a scan is read back**, whatever source lines it shows. -/
theorem Summary.exists_read (src : Bytes) (lines : List Bytes) (o : Options) :
    ∃ text, (scan src).summary lines o = .ok text ∧ read? text = some ((scan src).findings o) := by
  have hwords : ∀ opener ∈ (scan src).opened, IsWord opener.kind.text :=
    fun _ => isWord_of_mem_opened
  obtain h | ⟨closing, h⟩ | ⟨opened, -, h⟩ := scan_cases src
  · rw [h, Verdict.findings_of_opened_nil rfl]
    exact ⟨_, rfl, by decide⟩
  · rw [h, Verdict.findings_of_opened_nil rfl]
    exact ⟨_, rfl, read?_unexpectedClosing closing⟩
  · rw [h] at hwords ⊢
    exact ⟨_, rfl, read?_unmatched hwords lines o⟩

/-- Reports that are the same have the same findings. -/
theorem Summary.findings_eq {src src' : Bytes} {lines lines' : List Bytes} {o : Options}
    (h : (scan src).summary lines o = (scan src').summary lines' o) :
    (scan src).findings o = (scan src').findings o := by
  obtain ⟨text, htext, hread⟩ := exists_read src lines o
  obtain ⟨text', htext', hread'⟩ := exists_read src' lines' o
  rw [htext, htext'] at h
  obtain rfl := Except.ok.inj h
  exact Option.some.inj (hread.symm.trans hread')

/-- A report says that all is matched exactly if the verdict does. -/
theorem Summary.eq_allMatched_iff {src : Bytes} {lines : List Bytes} {o : Options} :
    (scan src).summary lines o = .ok (utf8 "ALL_MATCHED\n") ↔ (scan src).kind = .allMatched := by
  constructor
  · intro h
    -- The empty source has the same report.
    have hempty : (scan src).summary lines o = (scan []).summary [] o := h
    exact congrArg Findings.kind (findings_eq hempty)
  · intro h
    rw [Verdict.summary, h]

/-! ## Issues -/

/-- An issue reports an opener: it begins where the opener stands, and its rule and its last column
are those of the marker. -/
structure Issue.Reports (issue : Issue) (o : Opener) : Prop where
  start : issue.start = o.position
  marker : (o.kind.text = "\x7b" ∧ issue.rule = Rule.unmatchedOpen ∧ issue.stop = issue.start) ∨
    (o.kind.text = "$\x7b" ∧ issue.rule = Rule.unclosedInterpolation ∧
      issue.stop = { issue.start with column := issue.start.column + 1 })

/-- The issue of an opener begins where it stands, and has its rule and its last column. -/
theorem Issue.reports_unmatched {content : Bytes} (hlength : content.length < 2 ^ 63)
    (filename : Bytes) (count : Nat) {o : Opener}
    (h : o.Fits (Utf8.decode (Source.ofContent content).raw)) :
    (unmatched filename count o).Reports o := by
  obtain ⟨line, before, hmarks⟩ := @exists_marks_unmatched content filename hlength count o h
  have hstop : (unmatched filename count o).stop =
      ⟨o.position.line, o.position.column + (Rule.marker (Rule.ofKind o.kind)).length - 1⟩ := by
    have hstart : o.position.column = before.length + 1 := hmarks.start_column
    rw [Position.mk.injEq]
    refine ⟨rfl, hmarks.stop_column.trans ?_⟩
    omega
  refine ⟨rfl, ?_⟩
  rcases h with ⟨hkind, -⟩ | ⟨hkind, -⟩
  · refine .inl ⟨by rw [hkind]; rfl, congrArg Rule.ofKind hkind, ?_⟩
    rw [hstop, hkind]
    exact congrArg (Position.mk o.position.line) (Int.add_sub_cancel _ _)
  · refine .inr ⟨by rw [hkind]; rfl, congrArg Rule.ofKind hkind, ?_⟩
    rw [hstop, hkind]
    exact congrArg (Position.mk o.position.line) (Int.add_sub_assoc _ _ _)

theorem Verdict.length_tail (v : Verdict) (n : Int) : (v.tail n).length = min n.toNat v.count := by
  rw [tail, List.length_drop, count]
  omega

/-- A scan has no issues exactly if every brace is matched, if any opener is listed. -/
theorem Issue.ofVerdict_eq_nil_iff (filename src : Bytes) {o : Options}
    (htail : 0 < o.tail.toInt) :
    ofVerdict filename (scan src) o = [] ↔ (scan src).kind = .allMatched := by
  obtain h | ⟨closing, h⟩ | ⟨opened, hne, h⟩ := scan_cases src
  · rw [h]
    exact iff_of_true rfl rfl
  · rw [h]
    exact iff_of_false (List.cons_ne_nil _ _) nofun
  · rw [h]
    refine iff_of_false (fun hnil => ?_) nofun
    have hlength := (Verdict.unmatchedOpen opened).length_tail o.tail.toInt
    rw [List.map_eq_nil_iff.1 hnil] at hlength
    have hpos : 0 < (Verdict.unmatchedOpen opened).count := List.length_pos_iff.2 hne
    rw [List.length_nil] at hlength
    omega

/-- **The report and the issues of a scan carry the same findings.**  With at least one opener
listed, a source has no issues exactly if its report says that all is matched.  The report of
unmatched openers shows how many there are and lists the newest, in order, one for each issue.  And
reports that are the same, of any sources and with any source lines shown, are of verdicts with the
same class, closing brace, number of openers and listed openers. -/
theorem report_carries_issues {content : Bytes} (hlength : content.length < 2 ^ 63)
    (filename : Bytes) {o : Options} (htail : 0 < o.tail.toInt) :
    let source := Source.ofContent content
    let verdict := scan source.raw
    let issues := Issue.ofVerdict filename verdict o
    (issues = [] ↔ verdict.summary source.lines o = .ok (utf8 "ALL_MATCHED\n")) ∧
    (verdict.kind = .unmatchedOpen → ∃ (listed : List Opener) (context : Bytes),
      verdict.summary source.lines o =
        .ok ("UNMATCHED_OPEN_COUNT " ++ Bytes.ofNat verdict.count ++ "\n" ++
          listed.flatMap Summary.openerLine ++ "\n" ++ context) ∧
      listed <:+ verdict.opened ∧ (listed.length : Int) = min o.tail.toInt verdict.count ∧
      List.Forall₂ Issue.Reports issues listed) ∧
    ∀ (src src' : Bytes) (lines lines' : List Bytes),
      (scan src).summary lines o = (scan src').summary lines' o →
        (scan src).findings o = (scan src').findings o := by
  intro source verdict issues
  have hempty : issues = [] ↔ verdict.kind = .allMatched :=
    Issue.ofVerdict_eq_nil_iff filename source.raw htail
  refine ⟨hempty.trans Summary.eq_allMatched_iff.symm, fun hkind => ?_,
    fun _ _ _ _ => Summary.findings_eq⟩
  have hsummary : verdict.summary source.lines o = .ok (Summary.unmatched verdict source.lines o) := by
    rw [Verdict.summary, hkind]
  have hissues : issues = (verdict.tail o.tail.toInt).map
      (Issue.unmatched filename verdict.count) := by
    change Issue.ofVerdict filename verdict o = _
    rw [Issue.ofVerdict, hkind]
  refine ⟨verdict.tail o.tail.toInt, _, hsummary.trans (congrArg _ (Summary.unmatched_eq _ _ _)),
    List.drop_suffix _ _, ?_, ?_⟩
  · rw [Verdict.length_tail]
    omega
  · rw [hissues, List.forall₂_map_left_iff, List.forall₂_same]
    intro opener hopener
    exact Issue.reports_unmatched hlength filename _
      (fits_of_mem_opened (List.mem_of_mem_drop hopener))

/-- A brace, and an interpolation on the next line. -/
theorem report_carries_issues_pair : ∃ (listed : List Opener) (context : Bytes),
    (scan "\x7b\n`$\x7b").summary ["\x7b", "`$\x7b"] Options.standard =
      .ok ("UNMATCHED_OPEN_COUNT 2\n" ++ listed.flatMap Summary.openerLine ++ "\n" ++ context) ∧
    listed.length = 2 ∧
    List.Forall₂ Issue.Reports
      (Issue.ofVerdict "app.js" (scan "\x7b\n`$\x7b") Options.standard) listed := by
  have hsource : Source.ofContent "\x7b\n`$\x7b" =
      ⟨"\x7b\n`$\x7b", ["\x7b", "`$\x7b"]⟩ := by decide
  have hverdict : scan "\x7b\n`$\x7b" =
      .unmatchedOpen [⟨⟨1, 1⟩, .brace⟩, ⟨⟨2, 2⟩, .interpolation⟩] := by decide
  have hcarries := @report_carries_issues "\x7b\n`$\x7b" (by decide) "app.js" Options.standard
    (by decide)
  simp only [hsource, hverdict] at hcarries
  obtain ⟨listed, context, htext, -, hlisted, hreports⟩ := hcarries.2.1 rfl
  rw [hverdict]
  exact ⟨listed, context, htext, Int.ofNat.inj hlisted, hreports⟩

end BraceBalance
