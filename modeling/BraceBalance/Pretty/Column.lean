import BraceBalance.Text.Utf8

/-!
# Pretty/Column — where a character stands on the screen

A tab moves to the next multiple of eight; every other character is one column wide.
-/

namespace BraceBalance

namespace Column

/-- The distance between tab stops. -/
def tabWidth : Nat := 8

/-- The column after a character that starts at `column`. -/
def advance (column : Nat) (c : Char) : Nat :=
  if c = '\t' then column + (tabWidth - column % tabWidth) else column + 1

/-- The width of a run of characters that starts at the margin. -/
def width (cs : List Char) : Nat := cs.foldl advance 0

/-- The characters of a line before the one with the number `column`, counted from one.  Zero and
numbers past the end stand for the whole line, and below zero nothing is before it. -/
def before (line : Bytes) (column : Int) : List Char :=
  if column < 0 then []
  else if column = 0 then Utf8.decode line
  else (Utf8.decode line).take (column.toNat - 1)

/-- The screen column, counted from zero, of a character of a line. -/
def visual (line : Bytes) (column : Int) : Nat := width (before line column)

end Column

end BraceBalance
