import BraceBalance.Text.Bytes

/-!
# Text/Utf8 — the characters of a byte string

Reading never refuses: a byte that starts no well-formed sequence is a character of its own, the
replacement character.  `glyphs` keeps the bytes beside each character, so a text can be cut at
characters without losing a byte.
-/

namespace BraceBalance

/-- A character as it stands in a text: what it reads as, and the bytes that spell it. -/
structure Glyph where
  char : Char
  bytes : Bytes
  deriving DecidableEq

namespace Utf8

/-- What a byte that starts no well-formed sequence reads as. -/
def replacement : Char := '\ufffd'

/-- Whether `b` may continue a sequence, given the least and greatest byte allowed. -/
def within (low high b : UInt8) : Bool := low ≤ b && b ≤ high

/-- The six low bits a continuation byte carries. -/
def bits (b : UInt8) : Nat := b.toNat % 0x40

/-- The least and greatest second byte after the first byte `lead`: longer spellings of smaller
numbers, surrogates and numbers past the last code point are shut out here. -/
def secondRange (lead : UInt8) : UInt8 × UInt8 :=
  if lead = 0xe0 then (0xa0, 0xbf)
  else if lead = 0xed then (0x80, 0x9f)
  else if lead = 0xf0 then (0x90, 0xbf)
  else if lead = 0xf4 then (0x80, 0x8f)
  else (0x80, 0xbf)

/-- The character of the well-formed sequence that `lead` starts, and how many bytes of what
follows belong to it. -/
def sequence? (lead : UInt8) (rest : Bytes) : Option (Char × Nat) :=
  let (low, high) := secondRange lead
  if lead < 0x80 then some (Char.ofNat lead.toNat, 0)
  else if within 0xc2 0xdf lead then
    match rest with
    | b :: _ =>
      if within low high b then some (Char.ofNat ((lead.toNat % 0x20) * 0x40 + bits b), 1) else none
    | [] => none
  else if within 0xe0 0xef lead then
    match rest with
    | b :: c :: _ =>
      if within low high b && within 0x80 0xbf c then
        some (Char.ofNat (((lead.toNat % 0x10) * 0x40 + bits b) * 0x40 + bits c), 2)
      else none
    | _ => none
  else if within 0xf0 0xf4 lead then
    match rest with
    | b :: c :: d :: _ =>
      if within low high b && within 0x80 0xbf c && within 0x80 0xbf d then
        let high := ((lead.toNat % 0x08) * 0x40 + bits b) * 0x40 + bits c
        some (Char.ofNat (high * 0x40 + bits d), 3)
      else none
    | _ => none
  else none

/-- The glyphs of a text behind those already read (`acc`, newest first), once `skip` bytes that
belong to the last of them have been passed. -/
def glyphsOnto (acc : List Glyph) : Nat → Bytes → List Glyph
  | _, [] => acc.reverse
  | skip + 1, _ :: rest => glyphsOnto acc skip rest
  | 0, b :: rest =>
    match sequence? b rest with
    | some (c, more) => glyphsOnto (⟨c, b :: rest.take more⟩ :: acc) more rest
    | none => glyphsOnto (⟨replacement, [b]⟩ :: acc) 0 rest

/-- The glyphs of a text, in order. -/
def glyphs (s : Bytes) : List Glyph := glyphsOnto [] 0 s

/-- The characters of a text, one for each byte that is part of no well-formed sequence. -/
def decode (s : Bytes) : List Char := (glyphs s).map (·.char)

/-- The bytes that spell a character. -/
def encodeChar (c : Char) : Bytes := String.utf8EncodeChar c

/-- The bytes that spell a text. -/
def encode (cs : List Char) : Bytes := cs.flatMap encodeChar

/-- The bytes of a run of glyphs. -/
def join (gs : List Glyph) : Bytes := gs.flatMap (·.bytes)

/-- Whether every byte of a text is part of a well-formed sequence. -/
def wellFormed (s : Bytes) : Bool :=
  (glyphs s).all fun g => g.char != replacement || g.bytes.length == 3

end Utf8

end BraceBalance
