import BraceBalance.Text.Utf8

/-!
# Text/Blank — white space

The characters with the property White_Space, and cutting them off the ends of a text.
-/

namespace BraceBalance

/-- Whether a character is white space. -/
def isBlank (c : Char) : Bool :=
  let n := c.toNat
  (0x09 ≤ n && n ≤ 0x0d) || n == 0x20 || n == 0x85 || n == 0xa0 || n == 0x1680 ||
    (0x2000 ≤ n && n ≤ 0x200a) || n == 0x2028 || n == 0x2029 || n == 0x202f || n == 0x205f ||
    n == 0x3000

namespace Bytes

/-- The white space a text begins with. -/
def indent (s : Bytes) : Bytes := Utf8.join ((Utf8.glyphs s).takeWhile (isBlank ·.char))

/-- Whether a text is white space throughout. -/
def isBlankThroughout (s : Bytes) : Bool := (Utf8.glyphs s).all (isBlank ·.char)

/-- A text without the white space at its two ends. -/
def trim (s : Bytes) : Bytes :=
  let gs := (Utf8.glyphs s).dropWhile (isBlank ·.char)
  Utf8.join (gs.reverse.dropWhile (isBlank ·.char)).reverse

end Bytes

end BraceBalance
