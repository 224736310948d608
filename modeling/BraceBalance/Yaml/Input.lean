import BraceBalance.Text.Utf8

/-!
# Yaml/Input — the characters of a YAML stream

A stream is UTF-8 unless it starts with the byte order mark of UTF-16.  Control characters other
than tab, line feed, carriage return and next line are not allowed.
-/

namespace BraceBalance

namespace Yaml

/-- Why a stream is not well formed. -/
inductive Malformed where
  /-- The bytes are no text of the stream's encoding. -/
  | encoding
  | controlCharacter
  | unexpectedCharacter
  | unexpectedTab
  /-- A key that must end in a colon does not. -/
  | missingColon
  /-- An indicator stands where it may not. -/
  | misplacedIndicator
  | badDirective
  | badAnchor
  | badTag
  | badBlockHeader
  | badEscape
  | unclosedQuote
  | tooDeep
  /-- The tokens make no document. -/
  | unexpectedToken
  | unknownAnchor
  | undefinedTagHandle
  /-- A value contains itself, or is merged though it is no mapping. -/
  | badReference
  /-- A scalar is not what its tag says. -/
  | mistagged
  | exhausted
  deriving DecidableEq

/-- The byte order mark. -/
def byteOrderMark : Char := '\ufeff'

/-- The code units of a text in UTF-16, the high byte first if `big`. -/
def units16 (big : Bool) : Bytes → Option (List Nat)
  | [] => some []
  | [_] => none
  | a :: b :: rest =>
    let unit := if big then a.toNat * 0x100 + b.toNat else b.toNat * 0x100 + a.toNat
    (units16 big rest).map (unit :: ·)

/-- The characters of code units of UTF-16. -/
def chars16 : List Nat → Option (List Char)
  | [] => some []
  | [u] => if 0xd800 ≤ u ∧ u ≤ 0xdfff then none else some [Char.ofNat u]
  | u :: v :: rest =>
    if 0xdc00 ≤ u ∧ u ≤ 0xdfff then none
    else if 0xd800 ≤ u ∧ u ≤ 0xdbff then
      if 0xdc00 ≤ v ∧ v ≤ 0xdfff then
        (chars16 rest).map (Char.ofNat (0x10000 + (u - 0xd800) * 0x400 + (v - 0xdc00)) :: ·)
      else none
    else (chars16 (v :: rest)).map (Char.ofNat u :: ·)

/-- Whether a character may stand in a stream. -/
def allowed (c : Char) : Bool :=
  let n := c.toNat
  n == 0x09 || n == 0x0a || n == 0x0d || (0x20 ≤ n && n ≤ 0x7e) || n == 0x85 ||
    (0xa0 ≤ n && n ≤ 0xfffd) || 0x10000 ≤ n

/-- The characters of a stream without the mark of its encoding, allowed or not. -/
def decode (s : Bytes) : Except Malformed (List Char) :=
  let ofUnits (big : Bool) (rest : Bytes) :=
    match (units16 big rest).bind chars16 with
    | some cs => .ok cs
    | none => .error .encoding
  match s with
  | 0xff :: 0xfe :: rest => ofUnits false rest
  | 0xfe :: 0xff :: rest => ofUnits true rest
  | _ =>
    let body :=
      match s with
      | 0xef :: 0xbb :: 0xbf :: rest => rest
      | _ => s
    if Utf8.wellFormed body then .ok (Utf8.decode body) else .error .encoding

/-- The characters of a stream. -/
def characters (s : Bytes) : Except Malformed (List Char) := do
  let cs ← decode s
  if cs.all allowed then return cs else throw .controlCharacter

end Yaml

end BraceBalance
