import BraceBalance.Pretty.Draft
import BraceBalance.Proofs.Pretty.Indent
import BraceBalance.Proofs.Text.Decimal

/-!
# Proofs/Pretty/Snippet — a snippet is the source without its common indent

The lines of an issue are written one a row (`Draft.render_snippet`), each behind its number.  The
gutter is as wide as the last number, and no number before it is wider, so that every bar stands in
one column (`Draft.length_gutter`).  Behind the bar stands the line less the greatest indent that
the lines have in common: put back in front, it gives the line.
-/

namespace BraceBalance

/-! ## Pieces without colour -/

namespace Piece

theorem render_append (colour : Bool) (ps qs : List Piece) :
    render colour (ps ++ qs) = render colour ps ++ render colour qs := List.flatMap_append

theorem render_plain (ps : List Piece) : render false ps = ps.flatMap text := rfl

end Piece

namespace Draft

/-- A row of a snippet: the number of a source line, the line, what is written before the bar and
what is written behind it. -/
structure Row where
  number : Nat
  line : Bytes
  gutter : Bytes
  text : Bytes

/-- A row as it is written. -/
def Row.written (r : Row) : Bytes := r.gutter ++ "| " ++ r.text ++ "\n"

/-- The row of a line in a draft. -/
def rowOf (d : Draft) (numbered : Nat × Bytes) : Row where
  number := numbered.1
  line := numbered.2
  gutter := Bytes.padLeft d.gutterWidth (Bytes.ofNat numbered.1) ++ " "
  text := Bytes.dropStart d.commonIndent numbered.2

variable {d : Draft} {lines : List Bytes}

/-- A row is written as its number, a bar and what is left of its line. -/
theorem render_row (d : Draft) (number : Nat) (line : Bytes) :
    Piece.render false (row d.gutterWidth d.commonIndent number line) =
      (d.rowOf (number, line)).written := by
  have hbar : (utf8 " | ") = utf8 " " ++ utf8 "| " := rfl
  simp [row, rowOf, Row.written, Piece.render_plain, Piece.text, hbar]

/-! ## The lines of an issue -/

/-- The lines of an issue, each with its number. -/
def span (d : Draft) (lines : List Bytes) : List (Nat × Bytes) :=
  ((lines.take d.issue.stop.line.toNat).drop (d.issue.start.line.toNat - 1)).zipIdx.map
    fun (text, i) => (d.issue.start.line.toNat + i, text)

/-- A snippet is shown if the lines of the issue are among those of the source. -/
theorem snippet?_eq (hlines : d.lines = some lines)
    (hvalid : lineRangeValid d.issue.start.line d.issue.stop.line lines.length = true) :
    d.snippet? = some (d.span lines) := by
  rw [snippet?, hlines]
  exact if_pos hvalid

/-- The lines of an issue are among those of a source if they are in order, from the first one at
the earliest to the last one at the latest. -/
theorem lineRangeValid_iff {start stop : Int} {total : Nat} :
    lineRangeValid start stop total = true ↔ 0 < start ∧ start ≤ stop ∧ stop ≤ total := by
  simp only [lineRangeValid, Bool.and_eq_true, decide_eq_true_eq]
  omega

section

variable (hvalid : lineRangeValid d.issue.start.line d.issue.stop.line lines.length = true)

include hvalid

/-- The lines of an issue have the numbers from its first line to its last. -/
theorem map_fst_span : (d.span lines).map Prod.fst =
    List.range' d.issue.start.line.toNat
      (d.issue.stop.line.toNat + 1 - d.issue.start.line.toNat) := by
  obtain ⟨hstart, hle, hstop⟩ := lineRangeValid_iff.1 hvalid
  have hnumber : Prod.fst ∘ (fun (text, i) => (d.issue.start.line.toNat + i, text)) =
      (d.issue.start.line.toNat + ·) ∘ @Prod.snd Bytes Nat := rfl
  rw [span, List.map_map, hnumber, ← List.map_map, List.zipIdx_map_snd, List.map_add_range',
    List.length_drop, List.length_take]
  congr 1
  omega

/-- Each line of an issue stands in the source under its number. -/
theorem getElem?_of_mem_span {entry : Nat × Bytes} (h : entry ∈ d.span lines) :
    lines[entry.1 - 1]? = some entry.2 := by
  obtain ⟨hstart, hle, hstop⟩ := lineRangeValid_iff.1 hvalid
  obtain ⟨⟨text, i⟩, hmem, rfl⟩ := List.mem_map.1 h
  rw [List.mem_zipIdx_iff_getElem?, List.getElem?_drop, List.getElem?_take] at hmem
  split_ifs at hmem
  have hindex : d.issue.start.line.toNat + i - 1 = d.issue.start.line.toNat - 1 + i := by omega
  change lines[d.issue.start.line.toNat + i - 1]? = some text
  rw [hindex, hmem]

theorem le_of_mem_span {entry : Nat × Bytes} (h : entry ∈ d.span lines) :
    entry.1 ≤ d.issue.stop.line.toNat := by
  have hnumber := List.mem_map_of_mem (f := Prod.fst) h
  rw [map_fst_span hvalid, List.mem_range'_1] at hnumber
  omega

/-! ## Rows

The gutter is measured once, by the number of the last line, which is the greatest. -/

/-- **The number of a row fits into its gutter**, which is as wide as that of a row without one. -/
theorem length_gutter {entry : Nat × Bytes} (h : entry ∈ d.span lines) :
    (d.rowOf entry).gutter.length = d.padding.length := by
  obtain ⟨hstart, hle, -⟩ := lineRangeValid_iff.1 hvalid
  have hwidth : (Bytes.ofNat entry.1).length ≤ d.gutterWidth := by
    rw [gutterWidth, numberWidth, ← Int.toNat_of_nonneg (a := d.issue.stop.line) (by omega),
      Bytes.ofInt_natCast]
    exact Bytes.length_ofNat_mono (le_of_mem_span hvalid h)
  rw [padding, Bytes.length_spaces, rowOf, List.length_append, Bytes.length_padLeft hwidth]
  rfl

end

/-- The common indent of a draft is that of the lines of its issue. -/
theorem commonIndent_eq (h : d.snippet? = some (d.span lines)) :
    d.commonIndent = Indent.common ((d.span lines).map Prod.snd) := by
  rw [commonIndent, h]

/-- **A snippet is written row by row**, below a row without a number. -/
theorem render_snippet (h : d.snippet? = some (d.span lines)) :
    Piece.render false d.snippet.written = Piece.render false d.written ++ (d.padding ++ "|\n") ++
      ((d.span lines).map d.rowOf).flatMap Row.written := by
  have hrows : Piece.render false ((d.span lines).flatMap fun entry =>
      row d.gutterWidth d.commonIndent entry.1 entry.2) =
      ((d.span lines).map d.rowOf).flatMap Row.written := by
    rw [Piece.render, List.flatMap_assoc, List.flatMap_map]
    exact congrArg (d.span lines).flatMap (funext fun entry => d.render_row entry.1 entry.2)
  rw [snippet, h]
  simp only [write]
  rw [Piece.render_append, ← hrows, List.append_assoc]
  rfl

/-- These rows show the lines of an issue, from the first to the last, one each.  Every number ends
a blank before the bar, and every bar stands in the column of a bar without a number; the text of a
row is its line without the greatest indent that the lines have in common. -/
structure Shows (d : Draft) (lines : List Bytes) (rows : List Row) : Prop where
  numbers : rows.map Row.number = List.range' d.issue.start.line.toNat
    (d.issue.stop.line.toNat + 1 - d.issue.start.line.toNat)
  line : ∀ r ∈ rows, lines[r.number - 1]? = some r.line
  aligned : ∀ r ∈ rows, r.gutter.length = d.padding.length ∧
    ∃ k, r.gutter = Bytes.spaces k ++ Bytes.ofNat r.number ++ " "
  indent : Indent.Greatest (rows.map Row.line) d.commonIndent
  text : ∀ r ∈ rows, r.text = Bytes.dropStart d.commonIndent r.line ∧
    (r.line.isBlankThroughout = false → d.commonIndent ++ r.text = r.line)

theorem shows_span (h : d.snippet? = some (d.span lines))
    (hvalid : lineRangeValid d.issue.start.line d.issue.stop.line lines.length = true) :
    d.Shows lines ((d.span lines).map d.rowOf) := by
  have hindent : Indent.Greatest ((d.span lines).map Prod.snd) d.commonIndent :=
    commonIndent_eq h ▸ Indent.greatest_common _
  refine ⟨?_, ?_, ?_, ?_, ?_⟩
  · rw [List.map_map]
    exact map_fst_span hvalid
  · exact List.forall_mem_map.2 fun entry hentry => getElem?_of_mem_span hvalid hentry
  · exact List.forall_mem_map.2 fun entry hentry =>
      ⟨length_gutter hvalid hentry, d.gutterWidth - (Bytes.ofNat entry.1).length, rfl⟩
  · rw [List.map_map]
    exact hindent
  · refine List.forall_mem_map.2 fun entry hentry => ⟨rfl, fun hblank => ?_⟩
    exact Bytes.dropStart_of_prefix
      (hindent.begins _ (List.mem_map_of_mem hentry) hblank)

end Draft

/-- **A snippet is the source less its greatest common indent.**  The common indent of any lines is
white space that each line but a blank one begins with, and the greatest such.  So for an issue whose
lines are there, what is written without colour is one row for each of these lines, in order, with
its number set right so that all bars stand in one column, and with the common indent put back in
front the text of each row is its line. -/
theorem snippet_is_source_without_indent (lines : List Bytes) :
    Indent.Greatest lines (Indent.common lines) ∧
    ∀ d : Draft, d.lines = some lines →
      lineRangeValid d.issue.start.line d.issue.stop.line lines.length = true →
      ∃ rows, d.Shows lines rows ∧
        Piece.render false d.snippet.written =
          Piece.render false d.written ++ (d.padding ++ "|\n") ++
            rows.flatMap Draft.Row.written := by
  refine ⟨Indent.greatest_common lines, fun d hlines hvalid => ?_⟩
  have hsnippet := Draft.snippet?_eq hlines hvalid
  exact ⟨_, Draft.shows_span hsnippet hvalid, Draft.render_snippet hsnippet⟩

/-- Three of four lines, one of them blank: the indent of the other two is taken off. -/
theorem snippet_is_source_without_indent_block :
    ∃ (d : Draft) (rows : List Draft.Row), d.commonIndent = "  " ∧
      d.Shows ["a;", "    if (b) \x7b", "", "  c;"] rows ∧
      Piece.render false d.snippet.written =
        "  |\n" ++ rows.flatMap Draft.Row.written ∧
      rows.map Draft.Row.number = [2, 3, 4] := by
  let d : Draft :=
    { issue := { (default : Issue) with start := ⟨2, 12⟩, stop := ⟨4, 4⟩ }
      lines := some ["a;", "    if (b) \x7b", "", "  c;"] }
  obtain ⟨rows, hrows, hrender⟩ :=
    (snippet_is_source_without_indent ["a;", "    if (b) \x7b", "", "  c;"]).2 d rfl (by decide)
  have hpadding : Piece.render false d.written ++ (d.padding ++ utf8 "|\n") = utf8 "  |\n" := by
    decide
  rw [hpadding] at hrender
  exact ⟨d, rows, by decide, hrows, hrender, hrows.numbers⟩

end BraceBalance
