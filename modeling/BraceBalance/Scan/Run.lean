import BraceBalance.Scan.State
import BraceBalance.Scan.Verdict
import BraceBalance.Text.Utf8

/-!
# Scan/Run — scanning a source

`scan` reads a source from the first character to the last, or to the first closing brace in code
that has nothing to close, and gives the verdict; `scanTraced` gives the trace beside it.
-/

namespace BraceBalance

/-- How a run over characters ends. -/
inductive Outcome where
  | ended (state : State)
  | halted (closing : Position)

/-- Reads characters from a state on.  `trace` holds the events so far, the newest first. -/
def State.run (s : State) (trace : List Event) : List Char → Outcome × List Event
  | [] => (.ended s, trace)
  | c :: rest =>
    match s.step c rest.head? with
    | .next t (some event) => t.run (event :: trace) rest
    | .next t none => t.run trace rest
    | .halt closing => (.halted closing, .unexpectedClosing closing :: trace)

/-- The verdict on a run. -/
def Outcome.verdict : Outcome → Verdict
  | ended s => if s.stack.size = 0 then .allMatched else .unmatchedOpen s.stack.entries
  | halted closing => .unexpectedClosing closing

/-- The verdict on a source, and the trace of the scan in order. -/
def scanTraced (src : Bytes) : Verdict × List Event :=
  let (outcome, trace) := State.start.run [] (Utf8.decode src)
  (outcome.verdict, trace.reverse)

/-- The verdict on a source. -/
def scan (src : Bytes) : Verdict := (scanTraced src).1

end BraceBalance
