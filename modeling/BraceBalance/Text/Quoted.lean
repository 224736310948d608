import BraceBalance.Text.Printable

/-!
# Text/Quoted — quoted texts in messages

A quoted text is one line of printable characters whatever it holds: what does not print is
written as an escape, and a byte that is part of no character as `\x` and its two digits.
-/

namespace BraceBalance

namespace Quoted

/-- The least number of base-sixteen digits `width`, with zeros in front. -/
def hexPadded (width n : Nat) : Bytes :=
  let digits := (Nat.toDigits 16 n).map fun c => c.toNat.toUInt8
  List.replicate (width - digits.length) 0x30 ++ digits

/-- The escape of a character that does not print. -/
def escape (c : Char) : Bytes :=
  let n := c.toNat
  if n = 0x07 then "\\a"
  else if n = 0x08 then "\\b"
  else if n = 0x0c then "\\f"
  else if n = 0x0a then "\\n"
  else if n = 0x0d then "\\r"
  else if n = 0x09 then "\\t"
  else if n = 0x0b then "\\v"
  else if n < 0x20 ∨ n = 0x7f then "\\x" ++ hexPadded 2 n
  else if n < 0x10000 then "\\u" ++ hexPadded 4 n
  else "\\U" ++ hexPadded 8 n

/-- A character between quotes of the kind `mark`. -/
def writeChar (mark c : Char) : Bytes :=
  if c = mark ∨ c = '\\' then Utf8.encode ['\\', c]
  else if isPrintable c then Utf8.encodeChar c
  else escape c

/-- A glyph between double quotes. -/
def writeGlyph (g : Glyph) : Bytes :=
  match g.bytes with
  | [b] => if b < 0x80 then writeChar '\x22' g.char else "\\x" ++ Bytes.hexByte b
  | _ => writeChar '\x22' g.char

end Quoted

/-- A text in double quotes. -/
def Bytes.quoted (s : Bytes) : Bytes :=
  "\"" ++ (Utf8.glyphs s).flatMap Quoted.writeGlyph ++ "\""

/-- A character in single quotes. -/
def quotedChar (c : Char) : Bytes := "'" ++ Quoted.writeChar '\x27' c ++ "'"

end BraceBalance
