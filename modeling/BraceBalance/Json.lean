import BraceBalance.Text.Utf8
import BraceBalance.Text.Quoted

/-!
# Json — JSON text

Values and their indented text.  Besides what JSON itself forbids in a string, `<`, `>`, `&` and
the two Unicode line separators are escaped, so that the text may stand in a web page.
-/

namespace BraceBalance

/-- A JSON value. -/
inductive Json where
  | number (value : Int)
  | text (value : Bytes)
  | list (items : List Json)
  | object (fields : List (Bytes × Json))

namespace Json

/-- The escape of a character by its number. -/
def unicodeEscape (n : Nat) : Bytes := "\\u" ++ Quoted.hexPadded 4 n

/-- The characters that have a short escape. -/
def shortEscape? (c : Char) : Option Bytes :=
  if c = '\x22' then some "\\\""
  else if c = '\\' then some "\\\\"
  else if c = '\n' then some "\\n"
  else if c = '\r' then some "\\r"
  else if c = '\t' then some "\\t"
  else none

/-- Whether a character is escaped for the sake of web pages. -/
def unsafeInPages (c : Char) : Bool :=
  c == '<' || c == '>' || c == '&' || c == '\u2028' || c == '\u2029'

/-- A glyph in a string; `pages` escapes what web pages cannot hold. -/
def writeGlyph (pages : Bool) (g : Glyph) : Bytes :=
  match shortEscape? g.char with
  | some escape => escape
  | none =>
    if g.char == Utf8.replacement && g.bytes.length == 1 then unicodeEscape 0xfffd
    else if g.char < ' ' || (pages && unsafeInPages g.char) then unicodeEscape g.char.toNat
    else g.bytes

/-- A string. -/
def writeText (pages : Bool) (s : Bytes) : Bytes :=
  "\"" ++ (Utf8.glyphs s).flatMap (writeGlyph pages) ++ "\""

/-- A line break and the indent of a depth. -/
def newLine (depth : Nat) : Bytes := "\n" ++ Bytes.spaces (2 * depth)

/-- Items between brackets, one to a line. -/
def bracketed (left right : Bytes) (depth : Nat) (items : List Bytes) : Bytes :=
  if items.isEmpty then left ++ right
  else
    left ++ newLine (depth + 1) ++ Bytes.joinWith ("," ++ newLine (depth + 1)) items ++
      newLine depth ++ right

mutual

/-- A value at a depth of indent. -/
def indentedAt (depth : Nat) : Json → Bytes
  | number value => Bytes.ofInt value
  | text value => writeText true value
  | list items => bracketed "[" "]" depth (itemsAt (depth + 1) items)
  | object fields => bracketed "\x7b" "\x7d" depth (fieldsAt (depth + 1) fields)

/-- The items of a list. -/
def itemsAt (depth : Nat) : List Json → List Bytes
  | [] => []
  | value :: rest => indentedAt depth value :: itemsAt depth rest

/-- The fields of an object. -/
def fieldsAt (depth : Nat) : List (Bytes × Json) → List Bytes
  | [] => []
  | (name, value) :: rest =>
    (writeText true name ++ ": " ++ indentedAt depth value) :: fieldsAt depth rest

end

/-- The text of a value, two spaces for each depth. -/
def indented (value : Json) : Bytes := value.indentedAt 0

end Json

end BraceBalance
