import BraceBalance.Proofs.Pretty.Snippet
import BraceBalance.Proofs.Report.Marks

/-!
# Proofs/Pretty/Underline — where the underline of an issue stands

The underline starts at the column of the marker in its line, less the width of the indent; the line
is printed without the indent.  Tabs lead to stops that are counted from the margin, so the two
agree exactly if the indent ends at a stop, or no tab stands between it and the marker
(`Column.foldl_advance_eq_iff`).  A marker holds no tab, so the underline is as long as the marker
in any case.
-/

namespace BraceBalance

/-! ## Columns

A character leads to a column that depends on where it starts, since a tab goes to the next tab
stop. -/

namespace Column

theorem advance_tab (column : Nat) : advance column '\t' = (column / tabWidth + 1) * tabWidth := by
  rw [advance, if_pos rfl, tabWidth]
  omega

theorem advance_of_ne {c : Char} (h : c ≠ '\t') (column : Nat) : advance column c = column + 1 :=
  if_neg h

/-- Characters only lead to the right. -/
theorem le_foldl_advance (cs : List Char) (column : Nat) : column ≤ cs.foldl advance column := by
  induction cs generalizing column with
  | nil => exact Nat.le_refl column
  | cons c cs ih =>
    have hstep : column ≤ advance column c := by
      rw [advance]
      split_ifs <;> omega
    exact Nat.le_trans hstep (ih _)

/-- Without a tab, every character takes one column. -/
theorem foldl_advance_of_not_mem {cs : List Char} (h : '\t' ∉ cs) (column : Nat) :
    cs.foldl advance column = column + cs.length := by
  induction cs generalizing column with
  | nil => rfl
  | cons c cs ih =>
    obtain ⟨hc, hcs⟩ := List.ne_and_not_mem_of_not_mem_cons h
    rw [List.foldl_cons, advance_of_ne hc.symm, ih hcs, List.length_cons]
    omega

/-- From one tab stop to another nothing changes. -/
theorem foldl_advance_add (cs : List Char) {stop : Nat} (h : stop % tabWidth = 0) (column : Nat) :
    cs.foldl advance (stop + column) = stop + cs.foldl advance column := by
  induction cs generalizing column with
  | nil => rfl
  | cons c cs ih =>
    have hstep : advance (stop + column) c = stop + advance column c := by
      rw [advance, advance]
      split_ifs
      · simp only [tabWidth] at h ⊢
        omega
      · exact Nat.add_assoc stop column 1
    rw [List.foldl_cons, hstep, ih, List.foldl_cons]

/-- **A run of characters is as wide behind an indent as at the margin** exactly if the indent ends
at a tab stop or the run holds no tab. -/
theorem foldl_advance_eq_iff (indent : Nat) (cs : List Char) :
    cs.foldl advance indent = indent + width cs ↔ indent % tabWidth = 0 ∨ '\t' ∉ cs := by
  constructor
  · intro heq
    by_contra hneither
    rw [not_or, not_not] at hneither
    obtain ⟨hindent, hmem⟩ := hneither
    -- Behind the first tab both runs are at a stop, so they go on alike.
    obtain ⟨a, b, rfl, ha⟩ := List.eq_append_cons_of_mem hmem
    have hrun : ∀ column, (a ++ '\t' :: b).foldl advance column =
        ((column + a.length) / tabWidth + 1) * tabWidth + width b := by
      intro column
      rw [List.foldl_append, foldl_advance_of_not_mem ha, List.foldl_cons, advance_tab]
      have hstop := foldl_advance_add b (Nat.mul_mod_left ((column + a.length) / tabWidth + 1) _) 0
      rwa [Nat.add_zero] at hstop
    rw [width, hrun, hrun] at heq
    simp only [tabWidth] at heq hindent
    omega
  · rintro (hindent | hmem)
    · exact foldl_advance_add cs hindent 0
    · rw [foldl_advance_of_not_mem hmem, width, foldl_advance_of_not_mem hmem, Nat.zero_add]

/-- The column behind characters that a line begins with is their width. -/
theorem visual_of_prefix {line : Bytes} {cs : List Char} (h : cs <+: Utf8.decode line) :
    visual line (cs.length + 1) = width cs := by
  have htake : (Utf8.decode line).take cs.length = cs := (List.prefix_iff_eq_take.1 h).symm
  have hcolumn : ((cs.length : Int) + 1).toNat - 1 = cs.length := by omega
  rw [visual, before, if_neg (by omega), if_neg (by omega), hcolumn, htake]

/-- Characters behind others are as wide as they are from where those end. -/
theorem width_append (as bs : List Char) : width (as ++ bs) = bs.foldl advance (width as) :=
  List.foldl_append

end Column

/-! ## Markers behind an indent

The marker is no white space, so it stands in what is printed of its line, and the line is not
blank. -/

/-- White space that a text begins with ends before anything else in it. -/
theorem prefix_of_solid {text indent before marker : List Char}
    (hindent : indent <+: text) (hblank : ∀ c ∈ indent, isBlank c = true)
    (hmarker : before ++ marker <+: text) (hne : marker ≠ [])
    (hsolid : ∀ c ∈ marker, isBlank c = false) : indent <+: before := by
  rcases List.prefix_or_prefix_of_prefix hindent ((List.prefix_append _ _).trans hmarker) with
    h | ⟨rest, rfl⟩
  · exact h
  · rcases rest with _ | ⟨b, rest⟩
    · simp
    · -- The first character of the marker would be white space.
      exfalso
      obtain ⟨c, marker, rfl⟩ := List.exists_cons_of_ne_nil hne
      obtain ⟨after, rfl⟩ := hmarker
      rw [List.append_assoc, List.prefix_append_right_inj, List.cons_append,
        List.cons_prefix_cons] at hindent
      obtain ⟨rfl, -⟩ := hindent
      have hb := hblank b (List.mem_append_right before List.mem_cons_self)
      rw [hsolid b List.mem_cons_self] at hb
      exact absurd hb Bool.false_ne_true

theorem Rule.marker_ne_nil (rule : Bytes) : marker rule ≠ [] := by
  rw [marker]
  split_ifs <;> exact List.cons_ne_nil _ _

/-- The marker of an interpolation has two characters, a brace has one. -/
theorem Rule.length_marker (rule : Bytes) :
    (marker rule).length = if rule = unclosedInterpolation then 2 else 1 := by
  rw [marker]
  split_ifs with hclosing
  · exact absurd (hclosing.symm.trans ‹_›) (by decide)
  all_goals rfl

/-- No marker has white space in it. -/
theorem Rule.marker_solid (rule : Bytes) : ∀ c ∈ marker rule, isBlank c = false := by
  have hsolid : (marker rule).all (!isBlank ·) = true := by
    rw [marker]
    split_ifs <;> rfl
  simpa using hsolid

namespace Issue.Marks

variable {issue : Issue} {lines : List Bytes} {line : Bytes} {before marker : List Char}
  (h : issue.Marks lines line before marker)

include h

/-- An issue begins in the column behind what stands before its marker. -/
theorem visual_start : Column.visual line issue.start.column = Column.width before := by
  rw [h.start_column]
  exact Column.visual_of_prefix ((List.prefix_append _ _).trans h.text)

variable (hne : marker ≠ []) (hsolid : ∀ c ∈ marker, isBlank c = false)

include hne hsolid

/-- A line in which something is marked is not blank. -/
theorem not_blank : line.isBlankThroughout = false := by
  obtain ⟨c, rest, rfl⟩ := List.exists_cons_of_ne_nil hne
  rw [← Bool.not_eq_true, Bytes.isBlankThroughout_iff]
  intro hall
  have hc := hall c (h.text.subset (List.mem_append_right before List.mem_cons_self))
  rw [hsolid c List.mem_cons_self] at hc
  exact Bool.false_ne_true hc

/-- An issue ends in the column of the last character of its marker. -/
theorem visual_stop : Column.visual line issue.stop.column =
    Column.width before + (marker.length - 1) := by
  have hpos := List.length_pos_iff.2 hne
  have hlast : before ++ marker.dropLast <+: Utf8.decode line :=
    ((List.prefix_append_right_inj _).2 (List.dropLast_prefix marker)).trans h.text
  have hcolumn : issue.stop.column = ((before ++ marker.dropLast).length : Int) + 1 := by
    rw [h.stop_column, List.length_append, List.length_dropLast]
    omega
  have htab : '\t' ∉ marker.dropLast := fun hmem =>
    absurd (hsolid _ (marker.dropLast_subset hmem)) (by decide)
  rw [hcolumn, Column.visual_of_prefix hlast, Column.width_append,
    Column.foldl_advance_of_not_mem htab, List.length_dropLast]

end Issue.Marks

namespace Draft

variable {d : Draft} {lines : List Bytes} {line : Bytes} {before inner marker : List Char}

/-- An issue that marks something can be shown. -/
theorem lineRangeValid_of_marks (h : d.issue.Marks lines line before marker) :
    lineRangeValid d.issue.start.line d.issue.stop.line lines.length = true := by
  have hstart := h.start_line
  obtain ⟨hlt, -⟩ := List.getElem?_eq_some_iff.1 h.line_eq
  rw [lineRangeValid_iff, h.stop_line]
  omega

theorem commonIndent_blank (d : Draft) : ∀ c ∈ Utf8.decode d.commonIndent, isBlank c = true := by
  rw [← Bytes.isBlankThroughout_iff, commonIndent]
  split
  · exact (Indent.greatest_common _).blank
  · rfl

/-- The characters of a line are those of the indent and those printed of it. -/
theorem decode_commonIndent_append (d : Draft) (printed : Bytes) :
    Utf8.decode (d.commonIndent ++ printed) =
      Utf8.decode d.commonIndent ++ Utf8.decode printed :=
  Utf8.decode_append (Bytes.replacement_not_mem d.commonIndent_blank) printed

/-- An issue that marks something has one line. -/
theorem span_of_marks (h : d.issue.Marks lines line before marker) :
    d.span lines = [(d.issue.start.line.toNat, line)] := by
  have hstart := h.start_line
  obtain ⟨hlt, hline⟩ := List.getElem?_eq_some_iff.1 h.line_eq
  have hlast : d.issue.start.line.toNat = d.issue.start.line.toNat - 1 + 1 := by omega
  have hrows : (lines.take d.issue.start.line.toNat).drop (d.issue.start.line.toNat - 1) =
      [line] := by
    rw [hlast, List.take_succ_eq_append_getElem hlt, hline, Nat.add_sub_cancel]
    exact List.drop_left' (List.length_take_of_le hlt.le)
  rw [span, h.stop_line, hrows]
  rfl

/-- The line of an issue that marks something is the indent and what is printed of the line; the
marker stands in the latter. -/
theorem exists_printed (hlines : d.lines = some lines) (h : d.issue.Marks lines line before marker)
    (hne : marker ≠ []) (hsolid : ∀ c ∈ marker, isBlank c = false) :
    ∃ printed inner, line = d.commonIndent ++ printed ∧
      before = Utf8.decode d.commonIndent ++ inner ∧ inner ++ marker <+: Utf8.decode printed := by
  have hsnippet := snippet?_eq hlines (lineRangeValid_of_marks h)
  have hgreatest : Indent.Greatest [line] d.commonIndent := by
    rw [commonIndent_eq hsnippet, span_of_marks h]
    exact Indent.greatest_common [line]
  obtain ⟨printed, rfl⟩ := hgreatest.begins line List.mem_cons_self (h.not_blank hne hsolid)
  have htext := h.text
  rw [decode_commonIndent_append] at htext
  obtain ⟨inner, rfl⟩ := prefix_of_solid (List.prefix_append _ _) d.commonIndent_blank htext hne
    hsolid
  rw [List.append_assoc, List.prefix_append_right_inj] at htext
  exact ⟨printed, inner, rfl, rfl, htext⟩

/-! ## The underline -/

/-- The underline is as long as the marker; it begins as far right as the marker, less the width of
the indent. -/
theorem underlineSpan_of_marks (h : d.issue.Marks lines line before marker) (hne : marker ≠ [])
    (hsolid : ∀ c ∈ marker, isBlank c = false)
    (hindent : Column.width (Utf8.decode d.commonIndent) ≤ Column.width before) (number : Nat) :
    d.underlineSpan [(number, line)] =
      (Column.width before - Column.width (Utf8.decode d.commonIndent), marker.length) := by
  have hpos := List.length_pos_iff.2 hne
  simp only [underlineSpan, List.head?_cons, List.getLast?_singleton, Option.map_some,
    Option.getD_some]
  rw [Column.visual_of_prefix List.prefix_rfl, h.visual_start, h.visual_stop hne hsolid,
    Prod.mk.injEq]
  omega

theorem render_underline {rows : List (Nat × Bytes)} (h : d.snippet? = some rows) :
    Piece.render false d.underline.written = Piece.render false d.written ++
      (d.padding ++ "| " ++ Bytes.spaces (d.underlineSpan rows).1 ++
        Bytes.times (d.underlineSpan rows).2 "~" ++ "\n") ++
      (d.padding ++ "= " ++ d.issue.message ++ "\n") := by
  rw [underline, h]
  simp [write, Piece.render_plain, Piece.text]

theorem written_rowOf (d : Draft) (number : Nat) (printed : Bytes) :
    (d.rowOf (number, d.commonIndent ++ printed)).written =
      Bytes.padLeft d.gutterWidth (Bytes.ofNat number) ++ " | " ++ printed ++ "\n" := by
  have hprinted : Bytes.dropStart d.commonIndent (d.commonIndent ++ printed) = printed :=
    List.append_cancel_left (Bytes.dropStart_of_prefix (List.prefix_append _ _))
  have hbar : (utf8 " | ") = utf8 " " ++ utf8 "| " := rfl
  rw [Row.written, rowOf, hprinted, hbar]
  simp only [List.append_assoc]

/-- What is written of an issue that marks something: its line, the underline and the message. -/
theorem render_of_marks (hlines : d.lines = some lines)
    (h : d.issue.Marks lines line before marker) {start length : Nat}
    (hspan : d.underlineSpan [(d.issue.start.line.toNat, line)] = (start, length)) :
    Piece.render false d.snippet.underline.written =
      Piece.render false d.written ++ (d.padding ++ "|\n") ++
        (d.rowOf (d.issue.start.line.toNat, line)).written ++
        (d.padding ++ "| " ++ Bytes.spaces start ++ Bytes.times length "~" ++ "\n") ++
        (d.padding ++ "= " ++ d.issue.message ++ "\n") := by
  have hsnippet := snippet?_eq hlines (lineRangeValid_of_marks h)
  have hrows := render_snippet hsnippet
  rw [span_of_marks h] at hrows hsnippet
  have hwrite : ∃ pieces, d.snippet = d.write pieces := by
    rw [snippet, hsnippet]
    exact ⟨_, rfl⟩
  obtain ⟨pieces, hpieces⟩ := hwrite
  rw [hpieces] at hrows ⊢
  rw [render_underline (d := d.write pieces) hsnippet, hrows]
  have hwritten : (d.write pieces).underlineSpan [(d.issue.start.line.toNat, line)] =
      (start, length) := hspan
  rw [hwritten, List.map_singleton, List.flatMap_singleton]
  rfl

/-- A draft underlines the marker of its issue: the line of the issue is printed without the indent,
and the marker stands in what is printed behind the characters `inner`.  In the row below, as many
characters are underlined as the marker has, from the column `start` on, which is that of the marker
in the whole line less the width of the indent. -/
structure Underlines (d : Draft) (lines : List Bytes) (printed : Bytes) (inner : List Char)
    (start : Nat) : Prop where
  line_eq : lines[d.issue.start.line.toNat - 1]? = some (d.commonIndent ++ printed)
  marker : inner ++ Rule.marker d.issue.rule <+: Utf8.decode printed
  column : d.issue.start.column - (Utf8.decode d.commonIndent).length = inner.length + 1
  start_add : start + Column.width (Utf8.decode d.commonIndent) =
    Column.visual (d.commonIndent ++ printed) d.issue.start.column
  text : Piece.render false d.snippet.underline.written =
    Piece.render false d.written ++ (d.padding ++ "|\n") ++
      (Bytes.padLeft d.gutterWidth (Bytes.ofNat d.issue.start.line.toNat) ++ " | " ++
        printed ++ "\n") ++
      (d.padding ++ "| " ++ Bytes.spaces start ++
        Bytes.times (if d.issue.rule = Rule.unclosedInterpolation then 2 else 1) "~" ++ "\n") ++
      (d.padding ++ "= " ++ d.issue.message ++ "\n")

/-- The underline stands under the marker exactly if the indent ends at a tab stop or no tab stands
between it and the marker. -/
theorem Underlines.start_eq_iff {printed : Bytes} {start : Nat}
    (h : d.Underlines lines printed inner start) :
    start = Column.visual printed
        (d.issue.start.column - (Utf8.decode d.commonIndent).length) ↔
      Column.width (Utf8.decode d.commonIndent) % Column.tabWidth = 0 ∨ '\t' ∉ inner := by
  have hinner : inner <+: Utf8.decode printed := (List.prefix_append _ _).trans h.marker
  have hwhole : Utf8.decode d.commonIndent ++ inner <+: Utf8.decode (d.commonIndent ++ printed) := by
    rw [decode_commonIndent_append, List.prefix_append_right_inj]
    exact hinner
  have hcolumn : d.issue.start.column = ((Utf8.decode d.commonIndent ++ inner).length : Int) + 1 := by
    have hcolumn := h.column
    rw [List.length_append]
    omega
  have hstart := h.start_add
  rw [hcolumn, Column.visual_of_prefix hwhole, Column.width_append] at hstart
  rw [h.column, Column.visual_of_prefix hinner, ← Column.foldl_advance_eq_iff]
  omega

/-- An issue that marks something is underlined behind its indent. -/
theorem exists_underlines (hlines : d.lines = some lines)
    (h : d.issue.Marks lines line before (Rule.marker d.issue.rule)) :
    ∃ printed inner start, d.Underlines lines printed inner start := by
  have hne := Rule.marker_ne_nil d.issue.rule
  have hsolid := Rule.marker_solid d.issue.rule
  obtain ⟨printed, inner, rfl, rfl, hmarker⟩ := exists_printed hlines h hne hsolid
  have hle : Column.width (Utf8.decode d.commonIndent) ≤
      Column.width (Utf8.decode d.commonIndent ++ inner) := by
    rw [Column.width_append]
    exact Column.le_foldl_advance inner _
  have htext := render_of_marks hlines h (underlineSpan_of_marks h hne hsolid hle _)
  refine ⟨printed, inner, Column.width (Utf8.decode d.commonIndent ++ inner) -
    Column.width (Utf8.decode d.commonIndent), h.line_eq, hmarker, ?_, ?_, ?_⟩
  · rw [h.start_column, List.length_append]
    omega
  · rw [h.visual_start]
    exact Nat.sub_add_cancel hle
  · rw [htext, Rule.length_marker, written_rowOf]

end Draft

/-- **The underline of an issue stands under the marker that the issue is about**, one character
long for a brace and two for an interpolation: for every issue of a source that fits into memory,
what is written without colour is the line of the issue less its indent, and below it the underline,
which begins in the column of the marker in the line as printed exactly if the indent ends at a tab
stop or no tab stands between the indent and the marker. -/
theorem underline_under_marker_unless_tabs {content filename : Bytes} {o : Options} {issue : Issue}
    (hlength : content.length < 2 ^ 63)
    (h : issue ∈ Issue.ofVerdict filename (scan (Source.ofContent content).raw) o) :
    let d : Draft := { issue, lines := some (Source.ofContent content).lines }
    ∃ printed inner start, d.Underlines (Source.ofContent content).lines printed inner start ∧
      (start = Column.visual printed (issue.start.column - (Utf8.decode d.commonIndent).length) ↔
        Column.width (Utf8.decode d.commonIndent) % Column.tabWidth = 0 ∨ '\t' ∉ inner) := by
  intro d
  obtain ⟨line, before, hmarks⟩ := Issue.exists_marks hlength h
  obtain ⟨printed, inner, start, hunderlines⟩ := Draft.exists_underlines (d := d) rfl hmarks
  exact ⟨printed, inner, start, hunderlines, hunderlines.start_eq_iff⟩

/-- Behind one tab, an interpolation in a template with a tab in it. -/
theorem underline_under_marker_unless_tabs_template :
    ∃ (d : Draft) (printed : Bytes) (inner : List Char) (start : Nat),
      d.issue.rule = Rule.unclosedInterpolation ∧ d.commonIndent = "\t" ∧
      d.Underlines ["\t`a\t$\x7b"] printed inner start ∧
      start = Column.visual printed (d.issue.start.column - 1) := by
  let issue := Issue.unmatched "a.js" 1 ⟨⟨1, 5⟩, .interpolation⟩
  let d : Draft := { issue, lines := some (Source.ofContent "\t`a\t$\x7b").lines }
  have hmem : issue ∈ Issue.ofVerdict "a.js" (scan (Source.ofContent "\t`a\t$\x7b").raw)
      Options.standard := by
    decide
  have hindent : d.commonIndent = utf8 "\t" := by decide
  obtain ⟨printed, inner, start, hunderlines, hstart⟩ :=
    underline_under_marker_unless_tabs (by decide) hmem
  refine ⟨d, printed, inner, start, by decide, hindent, hunderlines, ?_⟩
  have hstop : Column.width (Utf8.decode d.commonIndent) % Column.tabWidth = 0 := by
    rw [hindent]
    decide
  rw [hstart.2 (Or.inl hstop)]
  change Column.visual printed (issue.start.column - (Utf8.decode d.commonIndent).length) = _
  rw [hindent]
  rfl

/-- Behind one blank and a tab, the underline is a column short. -/
theorem underline_astray_behind_tab :
    ∃ issue, Issue.ofVerdict "a.js" (scan (Source.ofContent " x\t\x7b").raw) Options.standard =
        [issue] ∧
      Piece.render false (Draft.underline (Draft.snippet
        { issue, lines := some (Source.ofContent " x\t\x7b").lines })).written =
        "  |\n1 | x\t\x7b\n  |        ~\n  = opening brace is never closed\n" ∧
      Column.visual "x\t\x7b" (issue.start.column - 1) = 8 :=
  ⟨Issue.unmatched "a.js" 1 ⟨⟨1, 4⟩, .brace⟩, by decide, by decide, by decide⟩

end BraceBalance
