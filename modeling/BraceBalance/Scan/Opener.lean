import BraceBalance.Text.Bytes

/-!
# Scan/Opener — opening markers and where they stand

Lines and columns count from one; a column is a number of characters.
-/

namespace BraceBalance

/-- A line and a column. -/
structure Position where
  line : Int
  column : Int
  deriving DecidableEq, Inhabited

/-- No position: line and column zero. -/
def Position.none : Position := ⟨0, 0⟩

/-- What opened a marker: a brace in code, `${` in a template, or a marker that is written otherwise
than these two. -/
inductive Kind where
  | brace
  | interpolation
  | named (text : Bytes) (unlike : text ≠ "\x7b" ∧ text ≠ "$\x7b")
  deriving DecidableEq, Inhabited

namespace Kind

/-- The marker as it is written. -/
def text : Kind → Bytes
  | brace => "\x7b"
  | interpolation => "$\x7b"
  | named text _ => text

/-- The kind of the marker written `text`. -/
def ofText (text : Bytes) : Kind :=
  if hbrace : text = "\x7b" then brace
  else if hinterpolation : text = "$\x7b" then interpolation
  else named text ⟨hbrace, hinterpolation⟩

/-- A kind is known by its marker. -/
@[simp] theorem ofText_text (kind : Kind) : ofText kind.text = kind := by
  cases kind with
  | brace => rfl
  | interpolation => rfl
  | named _ unlike => exact (dif_neg unlike.1).trans (dif_neg unlike.2)

end Kind

/-- An opening marker that has not been closed. -/
structure Opener where
  position : Position
  kind : Kind
  deriving DecidableEq, Inhabited

end BraceBalance
