import BraceBalance.Proofs.Pretty.Snippet
import BraceBalance.Proofs.Pretty.Words

/-!
# Proofs/Pretty/Faults — an issue is written out without a fault

    issue, lines ──begin──▸ checked draft ──step──▸ … ──step──▸ checked draft
                                  │ draft                            │ draft
                                draft ─────step──▸ … ──step──────▸ draft

A checked draft computes in words, reads lines by number and keeps what it computes of an issue for
the later steps; a fault would stop it.  It is begun and takes any steps without one, whatever the
numbers of the issue are, since lines are read only where the range of the issue is valid
(`Draft.shown?`), and then it has written what the draft has (`CheckedDraft.step_eq`).
-/

namespace BraceBalance

open Checked

namespace Draft

/-! ## Steps -/

/-- The steps that write an issue out. -/
inductive Step where
  | header
  | snippet
  | underline
  | info (text : Piece)
  | suggestion
  | note
  | finish

/-- A draft after one step more. -/
def step (d : Draft) : Step → Draft
  | .header => d.header
  | .snippet => d.snippet
  | .underline => d.underline
  | .info text => d.info text
  | .suggestion => d.suggestion
  | .note => d.note
  | .finish => d.finish

/-- The lines of the source, if those of the issue are among them. -/
def shown? (d : Draft) : Option (List Bytes) :=
  d.lines.filter fun lines =>
    lineRangeValid d.issue.start.line d.issue.stop.line lines.length

end Draft

/-! ## Checked drafts

The same steps as those of a draft, but with each index, part, copy and sum of whole numbers
checked. -/

/-- A draft with the width of its greatest line number, the gutter of a row without a number and
the common indent, each computed once. -/
structure CheckedDraft where
  draft : Draft
  width : Int
  padding : Bytes
  indent : Bytes

namespace CheckedDraft

/-- The common indent of the lines of an issue. -/
def indentOf (d : Draft) : Checked Bytes :=
  match d.shown? with
  | some lines => do
    let first ← word (d.issue.start.line - 1)
    commonIndent (← part lines first d.issue.stop.line)
  | none => .ok []

/-- A draft with nothing written. -/
def begin (issue : Issue) (lines : Option (List Bytes)) : Checked CheckedDraft := do
  let draft : Draft := { issue, lines }
  let width : Int := numberWidth issue.stop.line
  let padding ← times (← word (width + 1)) " "
  return { draft, width, padding, indent := ← indentOf draft }

/-- The draft with more written. -/
def write (c : CheckedDraft) (pieces : List Piece) : CheckedDraft :=
  { c with draft := c.draft.write pieces }

/-- Writes the severity, the rule and the place. -/
def header (c : CheckedDraft) : Checked CheckedDraft := do
  let issue := c.draft.issue
  let gutter ← times c.width " "
  return c.write [
    Draft.announcement issue.severity,
    .styled .rule issue.rule,
    .plain "\n",
    .styled .gutter (gutter ++ "--> "),
    .styled .file (issue.filename ++ ":" ++ Bytes.ofInt issue.start.line ++ ":" ++
      Bytes.ofInt issue.start.column ++ "\n")]

/-- The line with a number, counted from one. -/
def lineAt (lines : List Bytes) (n : Int) : Checked Bytes := do
  get lines (← word (n - 1))

/-- The rows of the lines from the number `i` on. -/
def rows (c : CheckedDraft) (lines : List Bytes) (i : Int) : Checked (List Piece) :=
  if i ≤ c.draft.issue.stop.line then do
    let line ← lineAt lines i
    let _ ← word (i + 1)
    return Draft.row c.width.toNat c.indent i.toNat line ++ (← c.rows lines (i + 1))
  else return []
termination_by (c.draft.issue.stop.line + 1 - i).toNat

/-- Writes the source lines. -/
def snippet (c : CheckedDraft) : Checked CheckedDraft :=
  match c.draft.shown? with
  | some lines => do
    let rows ← c.rows lines c.draft.issue.start.line
    return c.write (.styled .gutter (c.padding ++ "|\n") :: rows)
  | none => .ok c

/-- Where the underline of an issue starts, and how long it is. -/
def underlineSpan (issue : Issue) (indent : Bytes) (lines : List Bytes) : Checked (Int × Int) := do
  let indentWidth ← column indent (← word ((Utf8.decode indent).length + 1))
  let first ← lineAt lines issue.start.line
  let start ← word ((← column first issue.start.column) - indentWidth)
  let last ← lineAt lines issue.stop.line
  let stop ← word ((← column last issue.stop.column) - indentWidth)
  let length ← word ((← word (stop - max 0 start)) + 1)
  return (max 0 start, max 1 length)

/-- Writes the underline, where there are lines to underline, and the message. -/
def underline (c : CheckedDraft) : Checked CheckedDraft :=
  let message : List Piece := [
    .styled .gutter (c.padding ++ "= "),
    .styled .message (c.draft.issue.message ++ "\n")]
  match c.draft.shown? with
  | some lines => do
    let (start, length) ← underlineSpan c.draft.issue c.indent lines
    let blanks ← times start " "
    let tildes ← times length "~"
    return c.write ([
      .styled .gutter (c.padding ++ "| "),
      .plain blanks,
      .styled .message (tildes ++ "\n")] ++ message)
  | none => .ok (c.write message)

/-- A checked draft after one step more. -/
def step (c : CheckedDraft) : Draft.Step → Checked CheckedDraft
  | .header => c.header
  | .snippet => c.snippet
  | .underline => c.underline
  | .info text => .ok (c.write [.styled .gutter (c.padding ++ "| "), text, .plain "\n"])
  | .suggestion => .ok { c with draft := c.draft.suggestion }
  | .note => .ok { c with draft := c.draft.note }
  | .finish => .ok { c with draft := c.draft.finish }

/-- An issue written out in steps. -/
def run (issue : Issue) (lines : Option (List Bytes)) (steps : List Draft.Step) :
    Checked CheckedDraft := do
  steps.foldlM step (← begin issue lines)

end CheckedDraft

/-! ## What a fault would take

Lines that fit into memory leave room in a word for eight columns for each of their bytes, and for
the differences of two such columns. -/

/-- Numbers and lines as a program can be given them. -/
structure Draft.Fits (d : Draft) : Prop where
  number : IsWord d.issue.stop.line
  lines : ∀ lines, d.lines = some lines → FitsMemory lines

/-- No number of a word is wider than twenty characters. -/
theorem numberWidth_le {n : Int} (h : IsWord n) : numberWidth n ≤ 20 := by
  have hdigits : (Bytes.ofNat n.natAbs).length ≤ 19 := by
    rw [Bytes.length_ofNat_le_iff (by decide)]
    obtain ⟨hlow, hhigh⟩ := h
    omega
  rw [numberWidth, Bytes.ofInt]
  split_ifs
  · exact Nat.succ_le_succ hdigits
  · exact Nat.le_succ_of_le hdigits

theorem Bytes.times_space (n : Nat) : Bytes.times n " " = Bytes.spaces n := by
  induction n with
  | zero => rfl
  | succ n ih =>
    rw [Bytes.times] at ih ⊢
    rw [List.replicate_succ, List.flatten_cons, ih]
    rfl

/-- As many blanks as a word counts can be made. -/
theorem Checked.times_space {n : Nat} (h : n < 2 ^ 63) : times n " " = .ok (Bytes.spaces n) := by
  have hlength : (" " : Bytes).length = 1 := rfl
  rw [times_eq (by rwa [hlength, Nat.mul_one]), Bytes.times_space]

/-- The common indent is no longer than a line. -/
theorem Indent.length_common_lt {lines : List Bytes} {n : Nat} (hn : 0 < n)
    (h : ∀ line ∈ lines, line.length < n) : (common lines).length < n := by
  by_cases hsolid : ∃ line ∈ lines, line.isBlankThroughout = false
  · obtain ⟨line, hline, hblank⟩ := hsolid
    exact Nat.lt_of_le_of_lt ((greatest_common lines).begins line hline hblank).length_le
      (h line hline)
  · rw [common_of_blank hsolid]
    exact hn

namespace Draft

variable {d : Draft} {lines : List Bytes}

theorem shown?_eq_some_iff : d.shown? = some lines ↔ d.lines = some lines ∧
    lineRangeValid d.issue.start.line d.issue.stop.line lines.length = true :=
  Option.filter_eq_some_iff

/-- A snippet is shown of a source whose lines are there and hold those of the issue. -/
theorem snippet?_eq_map (d : Draft) : d.snippet? = d.shown?.map d.span := by
  rw [snippet?, shown?]
  rcases d.lines with _ | lines
  · rfl
  · by_cases hvalid : lineRangeValid d.issue.start.line d.issue.stop.line lines.length = true
    · have hfilter : (some lines).filter (fun ls => lineRangeValid d.issue.start.line
          d.issue.stop.line ls.length) = some lines := if_pos hvalid
      rw [hfilter]
      exact if_pos hvalid
    · have hfilter : (some lines).filter (fun ls => lineRangeValid d.issue.start.line
          d.issue.stop.line ls.length) = none := if_neg hvalid
      rw [hfilter]
      exact if_neg hvalid

/-- The lines of an issue are a part of all lines. -/
theorem map_snd_span (d : Draft) (lines : List Bytes) : (d.span lines).map Prod.snd =
    (lines.take d.issue.stop.line.toNat).drop (d.issue.start.line.toNat - 1) := by
  rw [span, List.map_map]
  exact List.zipIdx_map_fst _ _

theorem mem_of_mem_span {line : Bytes} (h : line ∈ (d.span lines).map Prod.snd) :
    line ∈ lines := by
  rw [map_snd_span] at h
  exact List.mem_of_mem_take (List.mem_of_mem_drop h)

/-- The common indent fits into memory as lines do. -/
theorem Fits.length_commonIndent_lt (h : d.Fits) : d.commonIndent.length < 2 ^ 60 := by
  rw [commonIndent, snippet?_eq_map]
  rcases hshown : d.shown? with _ | lines
  · exact Nat.two_pow_pos 60
  · exact Indent.length_common_lt (Nat.two_pow_pos 60) fun line hline =>
      (h.lines lines (shown?_eq_some_iff.1 hshown).1).line line (mem_of_mem_span hline)

/-- A step writes something, or nothing. -/
theorem exists_step_eq_write (d : Draft) (s : Step) : ∃ pieces, d.step s = d.write pieces := by
  have hnothing : d = d.write [] := by rw [write, List.append_nil]
  cases s with
  | snippet =>
    rw [step, snippet]
    split
    · exact ⟨_, rfl⟩
    · exact ⟨[], hnothing⟩
  | underline =>
    rw [step, underline]
    split
    · exact ⟨_, rfl⟩
    · exact ⟨_, rfl⟩
  | suggestion =>
    rw [step, suggestion]
    split_ifs
    · exact ⟨[], hnothing⟩
    · exact ⟨_, rfl⟩
  | note =>
    rw [step, note]
    split_ifs
    · exact ⟨[], hnothing⟩
    · exact ⟨_, rfl⟩
  | _ => exact ⟨_, rfl⟩

/-- A step does not touch the issue or the lines. -/
theorem Fits.step (h : d.Fits) (s : Step) : (d.step s).Fits := by
  obtain ⟨pieces, hpieces⟩ := d.exists_step_eq_write s
  rw [hpieces]
  exact ⟨h.number, h.lines⟩

theorem Fits.steps (h : d.Fits) (steps : List Step) : (steps.foldl Draft.step d).Fits := by
  induction steps generalizing d with
  | nil => exact h
  | cons s steps ih => exact ih (h.step s)

/-- The draft with all that can be computed of its issue. -/
def checked (d : Draft) : CheckedDraft := ⟨d, d.gutterWidth, d.padding, d.commonIndent⟩

/-- What is computed of the issue stays. -/
theorem checked_step (d : Draft) (s : Step) :
    (d.step s).checked = { d.checked with draft := d.step s } := by
  obtain ⟨pieces, hpieces⟩ := d.exists_step_eq_write s
  rw [hpieces]
  rfl

end Draft

/-! ## Steps without a fault -/

namespace CheckedDraft

variable {d : Draft} {lines : List Bytes}

/-- A line that is there is found under its number. -/
theorem lineAt_eq {n : Int} {line : Bytes} (hcount : lines.length < 2 ^ 60) (hn : 0 < n)
    (h : lines[n.toNat - 1]? = some line) : lineAt lines n = .ok line := by
  obtain ⟨hlt, -⟩ := List.getElem?_eq_some_iff.1 h
  have hindex : (n - 1).toNat = n.toNat - 1 := by omega
  exact bind_ok (word_eq ⟨by omega, by omega⟩) (get_eq (by omega) (hindex ▸ h))

/-- The common indent of an issue is found without a fault. -/
theorem indentOf_eq (h : d.Fits) : indentOf d = .ok d.commonIndent := by
  rcases hshown : d.shown? with _ | lines
  · rw [indentOf, Draft.commonIndent, Draft.snippet?_eq_map, hshown]
    rfl
  · obtain ⟨hlines, hvalid⟩ := Draft.shown?_eq_some_iff.1 hshown
    obtain ⟨hstart, hle, hstop⟩ := Draft.lineRangeValid_iff.1 hvalid
    obtain ⟨hcount, hline⟩ := h.lines lines hlines
    have hindex : (d.issue.start.line - 1).toNat = d.issue.start.line.toNat - 1 := by omega
    have hpart : part lines (d.issue.start.line - 1) d.issue.stop.line =
        .ok ((d.span lines).map Prod.snd) := by
      rw [part_eq (by omega) (by omega) hstop, hindex, Draft.map_snd_span]
    have hsnippet : d.snippet? = some (d.span lines) := Draft.snippet?_eq hlines hvalid
    rw [indentOf, hshown, Draft.commonIndent_eq hsnippet]
    refine bind_ok (word_eq ⟨by omega, by omega⟩) (bind_ok hpart ?_)
    exact commonIndent_eq fun line hmem => hline line (Draft.mem_of_mem_span hmem)

/-- A draft is begun without a fault, with all that is computed of its issue. -/
theorem begin_eq {issue : Issue} {lines : Option (List Bytes)}
    (h : Draft.Fits { issue, lines }) :
    begin issue lines = .ok (Draft.checked { issue, lines }) := by
  have hwidth : numberWidth issue.stop.line ≤ 20 := numberWidth_le h.number
  have hpadding : numberWidth issue.stop.line + 1 < 2 ^ 63 := by omega
  refine bind_ok (word_eq ⟨by omega, by omega⟩) ?_
  exact bind_ok (times_space hpadding) (bind_ok (indentOf_eq h) rfl)

/-- The header is written without a fault. -/
theorem header_eq (h : d.Fits) : d.checked.header = .ok d.header.checked := by
  have hwidth : d.gutterWidth ≤ 20 := numberWidth_le h.number
  have hgutter : d.gutterWidth < 2 ^ 63 := by omega
  exact bind_ok (times_space hgutter) rfl

/-- **The loop over the lines of an issue goes through**, from any of them on. -/
theorem rows_eq (hcount : lines.length < 2 ^ 60) (hstop : d.issue.stop.line ≤ lines.length)
    {i left : Nat} (hi : 0 < i) (hleft : i + left = d.issue.stop.line.toNat + 1) :
    d.checked.rows lines i =
      .ok ((((lines.take d.issue.stop.line.toNat).drop (i - 1)).zipIdx i).flatMap
        fun entry => Draft.row d.gutterWidth d.commonIndent entry.2 entry.1) := by
  induction left generalizing i with
  | zero =>
    have hnone : (lines.take d.issue.stop.line.toNat).drop (i - 1) = [] := by
      rw [List.drop_eq_nil_iff, List.length_take]
      omega
    rw [rows, if_neg (by change ¬ ((i : Int) ≤ d.issue.stop.line); omega), hnone]
    rfl
  | succ left ih =>
    have hlt : i - 1 < lines.length := by omega
    have hcons : (lines.take d.issue.stop.line.toNat).drop (i - 1) =
        lines[i - 1] :: (lines.take d.issue.stop.line.toNat).drop i := by
      rw [List.drop_eq_getElem_cons (by rw [List.length_take]; omega), List.getElem_take,
        Nat.sub_add_cancel hi]
    have hline := @lineAt_eq lines i _ hcount (by omega) (List.getElem?_eq_getElem hlt)
    have hrest := ih (Nat.succ_pos i) (by omega)
    rw [Nat.succ_sub_one] at hrest
    rw [rows, if_pos (by change (i : Int) ≤ d.issue.stop.line; omega), hcons, List.zipIdx_cons,
      List.flatMap_cons]
    exact bind_ok hline (bind_ok (word_eq ⟨by omega, by omega⟩) (bind_ok hrest rfl))

/-- The source lines are written without a fault. -/
theorem snippet_eq (h : d.Fits) : d.checked.snippet = .ok d.snippet.checked := by
  have hkept : d.checked.draft.shown? = d.shown? := rfl
  rw [snippet, hkept, Draft.snippet, Draft.snippet?_eq_map]
  rcases hshown : d.shown? with _ | lines
  · rfl
  · obtain ⟨hlines, hvalid⟩ := Draft.shown?_eq_some_iff.1 hshown
    obtain ⟨hstart, hle, hstop⟩ := Draft.lineRangeValid_iff.1 hvalid
    have hrows : d.checked.rows lines d.issue.start.line = .ok ((d.span lines).flatMap
        fun entry => Draft.row d.gutterWidth d.commonIndent entry.1 entry.2) := by
      have hfirst := @rows_eq d lines (h.lines lines hlines).count hstop d.issue.start.line.toNat
        (d.issue.stop.line + 1 - d.issue.start.line).toNat (by omega) (by omega)
      rw [Int.toNat_of_nonneg (by omega), List.zipIdx_eq_map_add, List.flatMap_map] at hfirst
      rw [hfirst, Draft.span, List.flatMap_map]
    exact bind_ok hrows rfl

/-- The first and the last line of an issue. -/
theorem lineAt_ends (h : d.Fits) (hshown : d.shown? = some lines) :
    ∃ first ∈ lines, ∃ last ∈ lines, lineAt lines d.issue.start.line = .ok first ∧
      lineAt lines d.issue.stop.line = .ok last ∧
      (d.span lines).head?.map (·.2) = some first ∧
      (d.span lines).getLast?.map (·.2) = some last := by
  obtain ⟨hlines, hvalid⟩ := Draft.shown?_eq_some_iff.1 hshown
  obtain ⟨hstart, hle, hstop⟩ := Draft.lineRangeValid_iff.1 hvalid
  have hcount := (h.lines lines hlines).count
  have hfirst : d.issue.start.line.toNat - 1 < lines.length := by omega
  have hlast : d.issue.stop.line.toNat - 1 < lines.length := by omega
  refine ⟨_, List.getElem_mem hfirst, _, List.getElem_mem hlast,
    lineAt_eq hcount hstart (List.getElem?_eq_getElem hfirst),
    lineAt_eq hcount (by omega) (List.getElem?_eq_getElem hlast), ?_, ?_⟩
  · rw [← List.head?_map, Draft.map_snd_span, List.head?_drop,
      List.getElem?_take_of_lt (by omega), List.getElem?_eq_getElem hfirst]
  · rw [← List.getLast?_map, Draft.map_snd_span, List.getLast?_drop,
      if_neg (by rw [List.length_take]; omega), List.getLast?_take, if_neg (by omega),
      List.getElem?_eq_getElem hlast]
    rfl

/-- **The underline is found without a fault**, and is not empty.  No column is further right than
eight for each byte of its line, so that no difference of two columns leaves a word. -/
theorem exists_underlineSpan (h : d.Fits) (hshown : d.shown? = some lines) :
    ∃ start length : Nat, underlineSpan d.issue d.commonIndent lines = .ok (start, length) ∧
      d.underlineSpan (d.span lines) = (start, length) ∧
      start < 2 ^ 63 ∧ 1 ≤ length ∧ length < 2 ^ 63 := by
  obtain ⟨first, hfirst, last, hlast, hfirstAt, hlastAt, hhead, hgetLast⟩ := lineAt_ends h hshown
  obtain ⟨-, hlength⟩ := h.lines lines (Draft.shown?_eq_some_iff.1 hshown).1
  have hindent := h.length_commonIndent_lt
  have hfirstLt := hlength first hfirst
  have hlastLt := hlength last hlast
  have hdecode := Utf8.length_decode_le d.commonIndent
  have hwidth := Column.visual_le d.commonIndent ((Utf8.decode d.commonIndent).length + 1)
  have hstart := Column.visual_le first d.issue.start.column
  have hstop := Column.visual_le last d.issue.stop.column
  rw [Column.tabWidth] at hwidth hstart hstop
  refine ⟨_, _, ?_, rfl, ?_⟩
  · refine bind_ok (word_eq ⟨by omega, by omega⟩) (bind_ok (column_eq hindent _) ?_)
    refine bind_ok hfirstAt (bind_ok (column_eq hfirstLt _) ?_)
    refine bind_ok (word_eq ⟨by omega, by omega⟩) ?_
    refine bind_ok hlastAt (bind_ok (column_eq hlastLt _) ?_)
    refine bind_ok (word_eq ⟨by omega, by omega⟩) ?_
    refine bind_ok (word_eq ⟨by omega, by omega⟩) (bind_ok (word_eq ⟨by omega, by omega⟩) ?_)
    simp only [hhead, hgetLast, Option.getD_some]
    rw [Int.toNat_of_nonneg (by omega), Int.toNat_of_nonneg (by omega)]
    rfl
  · simp only [hhead, hgetLast, Option.getD_some]
    omega

/-- The underline and the message are written without a fault. -/
theorem underline_eq (h : d.Fits) : d.checked.underline = .ok d.underline.checked := by
  have hkept : d.checked.draft.shown? = d.shown? := rfl
  rw [underline, hkept, Draft.underline, Draft.snippet?_eq_map]
  rcases hshown : d.shown? with _ | lines
  · rfl
  · obtain ⟨start, length, hspan, hdraft, hstart, -, hlength⟩ := exists_underlineSpan h hshown
    refine bind_ok hspan (bind_ok (times_space hstart) (bind_ok (times_eq ?_) ?_))
    · change length * 1 < _
      omega
    · simp only [Option.map_some, hdraft]
      rfl

/-- **A step meets no fault**, and writes what the step of the draft writes. -/
theorem step_eq (h : d.Fits) (s : Draft.Step) : d.checked.step s = .ok (d.step s).checked := by
  cases s with
  | header => exact header_eq h
  | snippet => exact snippet_eq h
  | underline => exact underline_eq h
  | suggestion => exact congrArg Except.ok (d.checked_step .suggestion).symm
  | note => exact congrArg Except.ok (d.checked_step .note).symm
  | info _ | finish => rfl

/-- Any number of steps meets no fault, by induction on the steps: each leaves a draft that fits. -/
theorem run_eq (h : d.Fits) (steps : List Draft.Step) :
    steps.foldlM step d.checked = .ok (steps.foldl Draft.step d).checked := by
  induction steps generalizing d with
  | nil => rfl
  | cons s steps ih =>
    rw [List.foldlM_cons]
    exact bind_ok (step_eq h s) (ih (h.step s))

end CheckedDraft

/-- **An issue is written out without a fault.**  Whatever the columns of the issue and the number
of its first line are, whatever word the number of its last line is, and whatever lines there are,
if any: in every order of steps all lines are read where there are lines, all parts of them have
their bounds in order, nothing is written a negative number of times, and all numbers fit into
words.  What is written is what the draft writes, and wherever it underlines something the underline
is not empty. -/
theorem drafting_meets_no_fault {issue : Issue} {lines : Option (List Bytes)}
    (hnumber : IsWord issue.stop.line) (hlines : ∀ ls, lines = some ls → FitsMemory ls)
    (steps : List Draft.Step) :
    let d := steps.foldl Draft.step { issue, lines }
    CheckedDraft.run issue lines steps = .ok d.checked ∧
      ∀ rows, d.snippet? = some rows → 1 ≤ (d.underlineSpan rows).2 := by
  intro d
  have hfits : Draft.Fits { issue, lines } := ⟨hnumber, hlines⟩
  refine ⟨bind_ok (CheckedDraft.begin_eq hfits) (CheckedDraft.run_eq hfits steps), ?_⟩
  intro rows hrows
  rw [Draft.snippet?_eq_map, Option.map_eq_some_iff] at hrows
  obtain ⟨ls, hshown, rfl⟩ := hrows
  obtain ⟨start, length, -, hspan, -, hlength, -⟩ :=
    CheckedDraft.exists_underlineSpan (hfits.steps steps) hshown
  rw [hspan]
  exact hlength

/-- Columns that are as far apart as words allow, crossed, in lines that are there; and a last line
of the least number there is. -/
theorem drafting_meets_no_fault_crossed :
    let steps : List Draft.Step := [.underline, .header, .snippet, .finish, .underline]
    let crossed : Issue := { (default : Issue) with
      start := ⟨1, 2 ^ 63 - 1⟩, stop := ⟨2, -2 ^ 63⟩ }
    let astray : Issue := { (default : Issue) with start := ⟨1, 1⟩, stop := ⟨-2 ^ 63, 0⟩ }
    (∃ c, CheckedDraft.run crossed (some ["\t\t\x7b", [0xff]]) steps = .ok c ∧
      c.draft.snippet? = some [(1, utf8 "\t\t\x7b"), (2, [0xff])] ∧
      c.draft.underlineSpan [(1, utf8 "\t\t\x7b"), (2, [0xff])] = (17, 1)) ∧
    ∃ c, CheckedDraft.run astray (some ["\x7b"]) steps = .ok c ∧ c.draft.snippet? = none := by
  intro steps crossed astray
  have hcrossed := @drafting_meets_no_fault crossed (some ["\t\t\x7b", [0xff]]) (by decide)
    (fun ls hls => Option.some.inj hls ▸ ⟨by decide, by decide⟩) steps
  have hastray := @drafting_meets_no_fault astray (some ["\x7b"]) (by decide)
    (fun ls hls => Option.some.inj hls ▸ ⟨by decide, by decide⟩) steps
  exact ⟨⟨_, hcrossed.1, by decide, by decide⟩, ⟨_, hastray.1, by decide⟩⟩

end BraceBalance
