import BraceBalance.Path.Lexical
import BraceBalance.Text.Utf8

/-!
# Path/Glob — patterns for paths

`*` stands for any run of bytes without a separator, `?` for one character other than it, and
`[...]` for one character of a class, which may be the separator.  A backslash takes away the
meaning of the next character.  A pattern that is not well formed matches nothing.
-/

namespace BraceBalance

namespace Glob

/-- A character of a pattern, and whether a backslash stood before it. -/
structure Sign where
  glyph : Glyph
  escaped : Bool

/-- Whether a sign is the plain character `c`. -/
def Sign.is (s : Sign) (c : Char) : Bool := !s.escaped && s.glyph.char == c

/-- The character a sign stands for in a class, if it may stand there unescaped or escaped. -/
def Sign.member? (s : Sign) : Option Char :=
  if s.is '-' || s.is ']' then none
  else if s.glyph.char == Utf8.replacement && s.glyph.bytes.length == 1 then none
  else some s.glyph.char

/-- The signs of a pattern, unless it ends in a backslash with nothing to escape. -/
def signs : List Glyph → Option (List Sign)
  | [] => some []
  | [g] => if g.char = '\\' then none else some [⟨g, false⟩]
  | g :: h :: rest =>
    if g.char = '\\' then (signs rest).map (⟨h, true⟩ :: ·)
    else (signs (h :: rest)).map (⟨g, false⟩ :: ·)

/-- A class of characters: those in one of the ranges, or those in none. -/
structure CharClass where
  negated : Bool
  ranges : List (Char × Char)

/-- Whether a character is in the class. -/
def CharClass.contains (k : CharClass) (c : Char) : Bool :=
  (k.ranges.any fun (low, high) => low ≤ c && c ≤ high) != k.negated

/-- A part of a pattern. -/
inductive Part where
  | byte (b : UInt8)
  | anyChar
  | oneOf (k : CharClass)
  | star

/-- The parts of a pattern from here on; `open?` is the class begun, with its ranges so far. -/
def parts : (open? : Option CharClass) → List Sign → Option (List Part)
  | none, [] => some []
  | some _, [] => none
  | none, s :: rest =>
    if s.is '*' then (parts none rest).map (.star :: ·)
    else if s.is '?' then (parts none rest).map (.anyChar :: ·)
    else if s.is '[' then
      match rest with
      | [] => none
      | t :: more =>
        if t.is '^' then parts (some ⟨true, []⟩) more else parts (some ⟨false, []⟩) (t :: more)
    else (parts none rest).map (s.glyph.bytes.map .byte ++ ·)
  | some k, s :: rest =>
    if s.is ']' && !k.ranges.isEmpty then (parts none rest).map (.oneOf k :: ·)
    else match s.member? with
      | none => none
      | some low =>
        match rest with
        | dash :: t :: more =>
          if dash.is '-' then
            match t.member? with
            | some high => parts (some { k with ranges := (low, high) :: k.ranges }) more
            | none => none
          else parts (some { k with ranges := (low, low) :: k.ranges }) (dash :: t :: more)
        | [t] => parts (some { k with ranges := (low, low) :: k.ranges }) [t]
        | [] => none

/-- A run of parts without a star, and whether a star stands before it. -/
structure Chunk where
  starred : Bool
  run : List Part

/-- The chunks of a pattern. -/
def chunks : List Part → List Chunk
  | [] => []
  | .star :: rest =>
    match chunks rest with
    | ⟨false, run⟩ :: more => ⟨true, run⟩ :: more
    | ⟨true, run⟩ :: more => ⟨true, run⟩ :: more
    | [] => [⟨true, []⟩]
  | p :: rest =>
    match chunks rest with
    | ⟨false, run⟩ :: more => ⟨false, p :: run⟩ :: more
    | more => ⟨false, [p]⟩ :: more

/-- The first character of a text, and the text after it. -/
def first? : Bytes → Option (Glyph × Bytes)
  | [] => none
  | b :: rest =>
    match Utf8.sequence? b rest with
    | some (c, more) => some (⟨c, b :: rest.take more⟩, rest.drop more)
    | none => some (⟨Utf8.replacement, [b]⟩, rest)

/-- What is left of a text after the part of it that `p` stands for. -/
def Part.after? (p : Part) (s : Bytes) : Option Bytes :=
  match p with
  | .byte b =>
    match s with
    | c :: rest => if c = b then some rest else none
    | [] => none
  | .anyChar =>
    match first? s with
    | some (g, rest) => if g.char = '/' then none else some rest
    | none => none
  | .oneOf k =>
    match first? s with
    | some (g, rest) => if k.contains g.char then some rest else none
    | none => none
  | .star => none

/-- What is left of a text after the run of parts. -/
def afterRun? : List Part → Bytes → Option Bytes
  | [], s => some s
  | p :: rest, s => (p.after? s).bind (afterRun? rest)

/-- The texts left after skipping one byte or more, none of them a separator. -/
def skips : Bytes → List Bytes
  | [] => []
  | b :: rest => if b = Path.separator then [] else rest :: skips rest

/-- Whether chunks match a whole text.  Each chunk takes the first place where it fits. -/
def matchChunks : List Chunk → Bytes → Bool
  | [], s => s.isEmpty
  | chunk :: more, s =>
    if chunk.starred && chunk.run.isEmpty then !s.contains Path.separator
    else
      let places := s :: if chunk.starred then skips s else []
      match (places.filterMap (afterRun? chunk.run)).find? fun t => t.isEmpty || !more.isEmpty with
      | some t => matchChunks more t
      | none => false

/-- Whether a pattern matches a whole text. -/
def matches? (pattern s : Bytes) : Bool :=
  match (signs (Utf8.glyphs pattern)).bind (parts none) with
  | some ps => matchChunks (chunks ps) s
  | none => false

end Glob

end BraceBalance
