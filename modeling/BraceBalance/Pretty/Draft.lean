import BraceBalance.Pretty.Column
import BraceBalance.Pretty.Indent
import BraceBalance.Pretty.Style
import BraceBalance.Report.Issue

/-!
# Pretty/Draft — an issue written out step by step

A draft holds what has been written of an issue so far.  The steps that show source lines do so
only if the issue's lines exist; otherwise the message stands alone.
-/

namespace BraceBalance

/-- Whether both ends of a range of line numbers, counted from one, are in order and exist. -/
def lineRangeValid (start stop : Int) (total : Nat) : Bool :=
  0 < start && 0 < stop && start ≤ stop && start ≤ total && stop ≤ total

/-- How many characters a number takes up. -/
def numberWidth (n : Int) : Nat := (Bytes.ofInt n).length

/-- What has been written of an issue. -/
structure Draft where
  issue : Issue
  /-- The lines of the source, if it is at hand. -/
  lines : Option (List Bytes)
  written : List Piece := []

namespace Draft

/-- The width of the widest line number shown. -/
def gutterWidth (d : Draft) : Nat := numberWidth d.issue.stop.line

/-- The gutter of a row without a number. -/
def padding (d : Draft) : Bytes := Bytes.spaces (d.gutterWidth + 1)

/-- The lines the issue spans, the first one's number first, if they all exist. -/
def snippet? (d : Draft) : Option (List (Nat × Bytes)) := do
  let lines ← d.lines
  if lineRangeValid d.issue.start.line d.issue.stop.line lines.length then
    let first := d.issue.start.line.toNat
    let last := d.issue.stop.line.toNat
    some (((lines.take last).drop (first - 1)).zipIdx.map fun (text, i) => (first + i, text))
  else none

/-- The indent the lines of the issue have in common. -/
def commonIndent (d : Draft) : Bytes :=
  match d.snippet? with
  | some rows => Indent.common (rows.map (·.2))
  | none => []

/-- The draft with more written. -/
def write (d : Draft) (pieces : List Piece) : Draft := { d with written := d.written ++ pieces }

/-- The word an issue of this severity is announced with. -/
def announcement : Severity → Piece
  | .warning => .styled .warning "warning: "
  | .info => .styled .info "info: "
  | _ => .styled .error "error: "

/-- Writes the severity, the rule and the place. -/
def header (d : Draft) : Draft :=
  d.write [
    announcement d.issue.severity,
    .styled .rule d.issue.rule,
    .plain "\n",
    .styled .gutter (Bytes.spaces d.gutterWidth ++ "--> "),
    .styled .file (d.issue.filename ++ ":" ++ Bytes.ofInt d.issue.start.line ++ ":" ++
      Bytes.ofInt d.issue.start.column ++ "\n")]

/-- A source line without the indent, behind its number. -/
def row (width : Nat) (indent : Bytes) (number : Nat) (text : Bytes) : List Piece := [
  .styled .gutter (Bytes.padLeft width (Bytes.ofNat number) ++ " | "),
  .plain (Bytes.dropStart indent text ++ "\n")]

/-- Writes the source lines. -/
def snippet (d : Draft) : Draft :=
  match d.snippet? with
  | some rows =>
    let indent := d.commonIndent
    d.write (.styled .gutter (d.padding ++ "|\n") ::
      rows.flatMap fun (n, text) => row d.gutterWidth indent n text)
  | none => d

/-- Where the underline starts, and how long it is. -/
def underlineSpan (d : Draft) (rows : List (Nat × Bytes)) : Nat × Nat :=
  let indent := d.commonIndent
  let indentWidth := Column.visual indent ((Utf8.decode indent).length + 1)
  let first := (rows.head?.map (·.2)).getD []
  let last := (rows.getLast?.map (·.2)).getD []
  let start : Int := max 0 (Column.visual first d.issue.start.column - indentWidth)
  let stop : Int := Column.visual last d.issue.stop.column - indentWidth
  (start.toNat, (max 1 (stop - start + 1)).toNat)

/-- Writes the underline, where there are lines to underline, and the message. -/
def underline (d : Draft) : Draft :=
  let message : List Piece := [
    .styled .gutter (d.padding ++ "= "),
    .styled .message (d.issue.message ++ "\n")]
  match d.snippet? with
  | some rows =>
    let (start, length) := d.underlineSpan rows
    d.write ([
      .styled .gutter (d.padding ++ "| "),
      .plain (Bytes.spaces start),
      .styled .message (Bytes.times length "~" ++ "\n")] ++ message)
  | none => d.write message

/-- Writes a further line beside the gutter. -/
def info (d : Draft) (text : Piece) : Draft :=
  d.write [.styled .gutter (d.padding ++ "| "), text, .plain "\n"]

/-- A titled paragraph. -/
def paragraph (title text : Bytes) : List Piece :=
  [.plain "\n", .styled .title title, .plain (text ++ "\n")]

/-- Writes the suggestion, if there is one. -/
def suggestion (d : Draft) : Draft :=
  if d.issue.suggestion = [] then d else d.write (paragraph "Suggestion: " d.issue.suggestion)

/-- Writes the note, if there is one. -/
def note (d : Draft) : Draft :=
  if d.issue.note = [] then d else d.write (paragraph "Note: " d.issue.note)

/-- Ends the draft with a line break; what is written so far is the rendering. -/
def finish (d : Draft) : Draft := d.write [.plain "\n"]

end Draft

namespace Issue

/-- The steps an issue is written out in, as its rule has them. -/
def draft (issue : Issue) (lines : Option (List Bytes)) : Draft :=
  let begun : Draft := { issue, lines }
  let shown := begun.header.snippet.underline
  if issue.rule = Rule.unexpectedClosing then
    (shown.info (.styled .warning
      "scanning stopped here, braces after this point were not checked")).suggestion.finish
  else if issue.rule = Rule.unclosedInterpolation then
    (shown.info (.styled .warning
      "the first `\x7d` inside the template closes the interpolation")).note.finish
  else shown.suggestion.note.finish

/-- Issues written out one after the other. -/
def render (colour : Bool) (issues : List Issue) (lines : Option (List Bytes)) : Bytes :=
  issues.flatMap fun issue => Piece.render colour (issue.draft lines).written

end Issue

end BraceBalance
