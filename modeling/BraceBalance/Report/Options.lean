import BraceBalance.Text.Bytes

/-!
# Report/Options — how much a report shows

Options are machine words: the window of context lines is computed modulo `2 ^ 64`, so an
extent near the largest word wraps around.
-/

namespace BraceBalance

/-- How much a report shows. -/
structure Options where
  /-- How many of the newest unmatched openers are listed. -/
  tail : Int64
  /-- How many lines are shown before the last unmatched opener. -/
  before : Int64
  /-- How many lines are shown after it. -/
  after : Int64
  deriving DecidableEq, Inhabited

namespace Options

/-- The options used when none are given. -/
def standard : Options := ⟨8, 3, 3⟩

/-- Whether a checker takes these options: at least one opener listed, no negative extent. -/
def accepted (o : Options) : Bool := 0 < o.tail && 0 ≤ o.before && 0 ≤ o.after

/-- The options as a message shows them. -/
def shown (o : Options) : Bytes :=
  "\x7bTail:" ++ Bytes.ofInt o.tail.toInt ++ " ContextBefore:" ++ Bytes.ofInt o.before.toInt ++
    " ContextAfter:" ++ Bytes.ofInt o.after.toInt ++ "\x7d"

end Options

/-- A half-open range of lines, counted from zero. -/
structure Window where
  start : Int64
  stop : Int64
  deriving DecidableEq

namespace Window

/-- The lines to show around the line with the number `line`, counted from one, of `total`. -/
def around (line total : Int64) (o : Options) : Window :=
  ⟨max 0 (line - 1 - o.before), min total (line + o.after)⟩

/-- Whether the line with the index `i` is in the window. -/
def contains (w : Window) (i : Nat) : Bool := w.start.toInt ≤ i && i < w.stop.toInt

end Window

end BraceBalance
