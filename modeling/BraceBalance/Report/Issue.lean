import BraceBalance.Report.Severity
import BraceBalance.Report.Options
import BraceBalance.Scan.Verdict

/-!
# Report/Issue — the findings of a verdict

Each listed opener is an issue of its own; an unexpected closing brace is one issue.
-/

namespace BraceBalance

/-- A finding at a place of a file. -/
structure Issue where
  rule : Bytes
  category : Bytes
  filename : Bytes
  message : Bytes
  suggestion : Bytes
  note : Bytes
  start : Position
  stop : Position
  severity : Severity
  deriving DecidableEq, Inhabited

namespace Rule

/-- A closing brace with nothing to close. -/
def unexpectedClosing : Bytes := "unexpected-closing-brace"

/-- A brace that is never closed. -/
def unmatchedOpen : Bytes := "unmatched-open-brace"

/-- An interpolation that is never closed. -/
def unclosedInterpolation : Bytes := "unclosed-interpolation"

/-- The rule an unmatched opener breaks. -/
def ofKind : Kind → Bytes
  | .interpolation => unclosedInterpolation
  | _ => unmatchedOpen

end Rule

namespace Issue

/-- The issue of an unexpected closing brace. -/
def unexpectedClosing (filename : Bytes) (closing : Position) : Issue where
  rule := Rule.unexpectedClosing
  category := "syntax"
  filename
  message := "closing brace has no matching opening brace"
  suggestion := "remove the brace or add the missing `\x7b` before it"
  note := "scanning stopped at this brace"
  start := closing
  stop := closing
  severity := .error

/-- The last column a marker takes up; the next column is a machine word. -/
def lastColumn (o : Opener) : Int :=
  match o.kind with
  | .interpolation => (Int64.ofInt o.position.column + 1).toInt
  | _ => o.position.column

/-- The issue of an opener that is never closed, one of `count` in its file. -/
def unmatched (filename : Bytes) (count : Nat) (o : Opener) : Issue where
  rule := Rule.ofKind o.kind
  category := "syntax"
  filename
  message :=
    match o.kind with
    | .interpolation => "template interpolation `$\x7b` is never closed"
    | _ => "opening brace is never closed"
  suggestion := []
  note := Bytes.ofNat count ++ " unmatched opening marker(s) in file"
  start := o.position
  stop := ⟨o.position.line, lastColumn o⟩
  severity := .error

/-- The issues of a verdict on a file. -/
def ofVerdict (filename : Bytes) (v : Verdict) (o : Options) : List Issue :=
  match v.kind with
  | .unexpectedClosing => [unexpectedClosing filename v.closing]
  | .unmatchedOpen => (v.tail o.tail.toInt).map (unmatched filename v.count)
  | _ => []

end Issue

end BraceBalance
