import BraceBalance.Yaml.Token

/-!
# Yaml/Cursor — a place in a YAML stream
-/

namespace BraceBalance

namespace Yaml

/-- What is left of a stream, and where it starts. -/
structure Cursor where
  rest : List Char
  index : Nat := 0
  line : Nat := 0
  column : Nat := 0
  /-- How many line breaks were passed since the last character that is not white space. -/
  breaks : Nat := 0
  /-- How many characters the whole stream has, which bounds how many are left. -/
  extent : Nat

/-- The start of a stream. -/
def Cursor.ofChars (cs : List Char) : Cursor := { rest := cs, extent := cs.length }

namespace Cursor

/-- The character `n` places on. -/
def peek (c : Cursor) (n : Nat) : Option Char := c.rest[n]?

/-- The next character. -/
def head? (c : Cursor) : Option Char := c.rest.head?

/-- Whether the next character is `ch`. -/
def at? (c : Cursor) (ch : Char) : Bool := c.head? == some ch

/-- Whether the next character is in a class. -/
def within (c : Cursor) (p : Char → Bool) : Bool := (c.head?.map p).getD false

/-- Whether a line break or the end comes next. -/
def atLineEnd (c : Cursor) : Bool := (c.head?.map isBreak).getD true

/-- Past `n` characters, none of them a line break. -/
def advance (c : Cursor) (n : Nat) : Cursor :=
  { c with
    rest := c.rest.drop n
    index := c.index + n
    column := c.column + n
    breaks := if (c.rest.take n).all isSpacing then c.breaks else 0 }

/-- Past the characters of a class that come next, none of them a line break. -/
def skipWhile (c : Cursor) (p : Char → Bool) : Cursor := c.advance (c.rest.takeWhile p).length

/-- Past what is left of the line. -/
def skipToLineEnd (c : Cursor) : Cursor := c.skipWhile (!isBreak ·)

/-- Past the line break that comes next, and how it is kept: as a line feed, unless it is one of
the Unicode separators. -/
def readLine (c : Cursor) : List Char × Cursor :=
  let past (n : Nat) : Cursor :=
    { c with
      rest := c.rest.drop n, index := c.index + n, line := c.line + 1, column := 0,
      breaks := c.breaks + 1 }
  match c.rest with
  | '\r' :: '\n' :: _ => (['\n'], past 2)
  | ch :: _ =>
    if ch = '\u2028' ∨ ch = '\u2029' then ([ch], past 1)
    else if isBreak ch then (['\n'], past 1)
    else ([], c)
  | [] => ([], c)

/-- Past the line break that comes next. -/
def skipLine (c : Cursor) : Cursor := c.readLine.2

/-- Whether a line of three characters `ch` and then white space comes next. -/
def atMark (c : Cursor) (ch : Char) : Bool :=
  c.column == 0 && c.rest.take 3 == [ch, ch, ch] && isGap (c.peek 3)

/-- Whether the mark of a document's start or end comes next. -/
def atDocumentMark (c : Cursor) : Bool := c.atMark '-' || c.atMark '.'

end Cursor

end Yaml

end BraceBalance
