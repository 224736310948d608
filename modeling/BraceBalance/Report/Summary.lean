import BraceBalance.Report.Options
import BraceBalance.Scan.Verdict

/-!
# Report/Summary — the plain text of a verdict

One word when all is matched, one line for an unexpected closing brace; for unmatched openers their
number, the newest of them, and the source lines around the last.
-/

namespace BraceBalance

namespace Summary

/-- The line of a listed opener. -/
def openerLine (o : Opener) : Bytes :=
  "  AT " ++ Bytes.ofInt o.position.line ++ " " ++ Bytes.ofInt o.position.column ++ " " ++
    o.kind.text ++ "\n"

/-- A source line of the context, with its number; the line of the last opener is marked. -/
def contextLine (marked : Int) (number : Nat) (text : Bytes) : Bytes :=
  (if (number : Int) = marked then ">" else " ") ++ " " ++
    Bytes.padLeft 4 (Bytes.ofNat number) ++ ": " ++ text ++ "\n"

/-- The source lines around the line with the number `line`. -/
def context (line : Int) (lines : List Bytes) (o : Options) : Bytes :=
  let window := Window.around (Int64.ofInt line) (Int64.ofNat lines.length) o
  lines.zipIdx.flatMap fun (text, i) =>
    if window.contains i then contextLine line (i + 1) text else []

/-- The report of unmatched openers. -/
def unmatched (v : Verdict) (lines : List Bytes) (o : Options) : Bytes :=
  "UNMATCHED_OPEN_COUNT " ++ Bytes.ofNat v.count ++ "\n" ++
    (v.tail o.tail.toInt).flatMap openerLine ++
    "\nContext around last unmatched open:\n" ++
    context ((v.last?.map (·.position.line)).getD 0) lines o

end Summary

/-- The plain text of a verdict on a source with these lines, or the number of its class if that
is no known class. -/
def Verdict.summary (v : Verdict) (lines : List Bytes) (o : Options) : Except Int Bytes :=
  match v.kind with
  | .allMatched => .ok "ALL_MATCHED\n"
  | .unexpectedClosing =>
    .ok ("UNEXPECTED_CLOSING at " ++ Bytes.ofInt v.closing.line ++ " " ++
      Bytes.ofInt v.closing.column ++ "\n")
  | .unmatchedOpen => .ok (Summary.unmatched v lines o)
  | .other code _ => .error code

end BraceBalance
