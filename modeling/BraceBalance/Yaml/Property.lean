import BraceBalance.Yaml.Cursor

/-!
# Yaml/Property — anchors, tags and directives
-/

namespace BraceBalance

namespace Yaml

/-! ## Anchors and aliases -/

/-- What may follow the name of an anchor or alias besides white space. -/
def endsName (c : Char) : Bool := ['?', ':', ',', ']', '\x7d', '%', '@', '\x60'].contains c

/-- Reads the name of an anchor or alias, its mark first. -/
def readName (c : Cursor) : Except Malformed (List Char × Cursor) :=
  let c := c.advance 1
  let name := c.rest.takeWhile isWordChar
  let after := c.advance name.length
  if name.isEmpty || !(isGap after.head? || after.within endsName) then .error .badAnchor
  else .ok (name, after)

/-! ## Tags -/

/-- How many bytes a character takes whose first byte this is. -/
def sequenceLength? (lead : Nat) : Option Nat :=
  if lead < 0x80 then some 1
  else if lead / 0x20 = 0x6 then some 2
  else if lead / 0x10 = 0xe then some 3
  else if lead / 0x08 = 0x1e then some 4
  else none

/-- The byte written as `%` and two digits. -/
def escapedByte? (c : Cursor) : Option Nat :=
  match c.rest with
  | '%' :: a :: b :: _ => hexNumber? [a, b]
  | _ => none

/-- Reads `count` escaped bytes that continue a character. -/
def continuation : (count : Nat) → Bytes → Cursor → Except Malformed (Bytes × Cursor)
  | 0, bytes, c => .ok (bytes, c)
  | count + 1, bytes, c =>
    match escapedByte? c with
    | some b =>
      if b / 0x40 = 2 then continuation count (bytes ++ [b.toUInt8]) (c.advance 3)
      else .error .badTag
    | none => .error .badTag

/-- Reads a character whose bytes are all escaped. -/
def readEscaped (c : Cursor) : Except Malformed (List Char × Cursor) := do
  let some lead := escapedByte? c | throw .badTag
  let some length := sequenceLength? lead | throw .badTag
  let (bytes, c) ← continuation (length - 1) [lead.toUInt8] (c.advance 3)
  return (Utf8.decode bytes, c)

/-- Reads on in a tag's name after its text so far, the last character first. -/
def uriOnto : (fuel : Nat) → List Char → Cursor → Except Malformed (List Char × Cursor)
  | 0, text, c => .ok (text.reverse, c)
  | fuel + 1, text, c =>
    if c.at? '%' then do
      let (chars, c) ← readEscaped c
      uriOnto fuel (chars.reverse ++ text) c
    else match c.head? with
      | some ch =>
        if isTagChar ch then uriOnto fuel (ch :: text) (c.advance 1) else .ok (text.reverse, c)
      | none => .ok (text.reverse, c)

/-- Reads a tag's name that starts with `start`; it is not empty unless `mayBeEmpty`. -/
def readUri (start : List Char) (mayBeEmpty : Bool) (c : Cursor) :
    Except Malformed (List Char × Cursor) := do
  let (text, after) ← uriOnto c.extent start.reverse c
  if after.index = c.index && !mayBeEmpty then throw .badTag
  return (text, after)

/-- Reads `!`, a word, and a second `!` if there is one. -/
def readHandle (c : Cursor) : Except Malformed (List Char × Cursor) := do
  if !c.at? '!' then throw .badTag
  let c := c.advance 1
  let word := c.rest.takeWhile isWordChar
  let c := c.advance word.length
  if c.at? '!' then return ('!' :: word ++ ['!'], c.advance 1)
  return ('!' :: word, c)

/-- Whether a text is `!`, a word and `!`. -/
def isNamedHandle (handle : List Char) : Bool :=
  1 < handle.length && handle.getLast? == some '!'

/-- Reads a tag: its handle and the rest. -/
def readTag (c : Cursor) : Except Malformed (Token × Cursor) := do
  let (token, c) ←
    if c.peek 1 = some '<' then do
      let (suffix, c) ← readUri [] false (c.advance 2)
      if !c.at? '>' then throw .badTag
      pure (Token.tag [] suffix, c.advance 1)
    else do
      let (handle, c) ← readHandle c
      if isNamedHandle handle then
        let (suffix, c) ← readUri [] false c
        pure (Token.tag handle suffix, c)
      else
        let (suffix, c) ← readUri (handle.drop 1) true c
        pure (if suffix.isEmpty then Token.tag [] handle else Token.tag ['!'] suffix, c)
  if !isGap c.head? then throw .badTag
  return (token, c)

/-! ## Directives -/

/-- The most digits of a version number. -/
def maxVersionDigits : Nat := 2

/-- Reads a version number. -/
def readVersionNumber (c : Cursor) : Except Malformed (Nat × Cursor) :=
  let digits := c.rest.takeWhile Char.isDigit
  if digits.isEmpty || maxVersionDigits < digits.length then .error .badDirective
  else .ok (digits.foldl (fun n d => 10 * n + (d.toNat - 0x30)) 0, c.advance digits.length)

/-- Reads what stands in a version directive after its name. -/
def readVersion (c : Cursor) : Except Malformed (Token × Cursor) := do
  let (major, c) ← readVersionNumber (c.skipWhile isSpacing)
  if !c.at? '.' then throw .badDirective
  let (minor, c) ← readVersionNumber (c.advance 1)
  return (.version major minor, c)

/-- Reads what stands in a tag directive after its name. -/
def readTagDirective (c : Cursor) : Except Malformed (Token × Cursor) := do
  let (handle, c) ← readHandle (c.skipWhile isSpacing)
  if handle ≠ ['!'] && !isNamedHandle handle then throw .badDirective
  if !c.within isSpacing then throw .badDirective
  let (start, c) ← readUri [] false (c.skipWhile isSpacing)
  if !isGap c.head? then throw .badDirective
  return (.tagDirective handle start, c)

/-- Reads a directive to the end of its line. -/
def readDirective (c : Cursor) : Except Malformed (Token × Cursor) := do
  let c := c.advance 1
  let name := c.rest.takeWhile isWordChar
  let c := c.advance name.length
  if name.isEmpty || !isGap c.head? then throw .badDirective
  let (token, c) ←
    if name = ['Y', 'A', 'M', 'L'] then readVersion c
    else if name = ['T', 'A', 'G'] then readTagDirective c
    else throw .badDirective
  let c := c.skipWhile isSpacing
  let c := if c.at? '#' then c.skipToLineEnd else c
  if !c.atLineEnd then throw .badDirective
  return (token, c.skipLine)

end Yaml

end BraceBalance
