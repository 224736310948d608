import BraceBalance.Yaml.Cursor

/-!
# Yaml/ScalarText — reading scalars

Plain and quoted scalars fold their lines: a line break reads as a space, and each empty line after
it as a line feed.  Block scalars keep their lines or fold them, and their tail is kept, cut to one
line break or dropped.
-/

namespace BraceBalance

namespace Yaml

/-- White space that has been passed and may yet belong to a scalar. -/
structure Gap where
  /-- White space on the line, the last character first. -/
  spacing : List Char := []
  /-- The first line break; empty for one that was escaped. -/
  firstBreak : List Char := []
  /-- The line breaks after it, the last first. -/
  moreBreaks : List Char := []
  /-- Whether a line was ended. -/
  broken : Bool := false

namespace Gap

/-- What a gap reads as, the last character first. -/
def folded (g : Gap) : List Char :=
  if g.broken then
    if g.firstBreak = ['\n'] then (if g.moreBreaks.isEmpty then [' '] else g.moreBreaks)
    else g.moreBreaks ++ g.firstBreak.reverse
  else g.spacing

/-- Passes white space and line breaks.  `least` is the least column of a tab after a break, if
tabs may violate the indentation. -/
def pass (least : Option Int) : (fuel : Nat) → Gap → Cursor → Except Malformed (Gap × Cursor)
  | 0, g, c => .ok (g, c)
  | fuel + 1, g, c =>
    match c.head? with
    | none => .ok (g, c)
    | some ch =>
      if isSpacing ch then
        let early :=
          match least with
          | some least => decide ((c.column : Int) < least)
          | none => false
        if g.broken && ch == '\t' && early then .error .unexpectedTab
        else if g.broken then pass least fuel g (c.advance 1)
        else pass least fuel { g with spacing := ch :: g.spacing } (c.advance 1)
      else if isBreak ch then
        let (text, c) := c.readLine
        if g.broken then pass least fuel { g with moreBreaks := text.reverse ++ g.moreBreaks } c
        else pass least fuel { g with spacing := [], firstBreak := text, broken := true } c
      else .ok (g, c)

end Gap

/-! ## Plain scalars -/

/-- How many of the characters that come next belong to a plain scalar. -/
def plainRun (inFlow : Bool) : List Char → Nat
  | [] => 0
  | ch :: rest =>
    if isGap (some ch) || (ch == ':' && isGap rest.head?) || (inFlow && isFlowIndicator ch) then 0
    else plainRun inFlow rest + 1

/-- Reads on in a plain scalar: its text so far (`text`, the last character first) and the gap after
it.  Gives the text, the place after it and whether a line was ended there. -/
def plainOnto (inFlow : Bool) (indent : Int) :
    (fuel : Nat) → List Char → Gap → Cursor → Except Malformed (List Char × Cursor × Bool)
  | 0, text, g, c => .ok (text.reverse, c, g.broken)
  | fuel + 1, text, g, c => do
    if c.atDocumentMark || c.at? '#' then return (text.reverse, c, g.broken)
    let n := plainRun inFlow c.rest
    let (text, g, c) :=
      if n = 0 then (text, g, c)
      else ((c.rest.take n).reverse ++ g.folded ++ text, ({} : Gap), c.advance n)
    if !c.within fun ch => isSpacing ch || isBreak ch then
      return (text.reverse, c, g.broken)
    let (g, c) ← Gap.pass (some indent) c.extent g c
    if !inFlow && (c.column : Int) < indent then return (text.reverse, c, g.broken)
    plainOnto inFlow indent fuel text g c

/-- Reads a plain scalar whose lines stand at least at the column `indent`. -/
def readPlain (inFlow : Bool) (indent : Int) (c : Cursor) :
    Except Malformed (List Char × Cursor × Bool) :=
  plainOnto inFlow indent (c.extent + 1) [] {} c

/-! ## Quoted scalars -/

/-- What follows a backslash: a character, or a number of digits that give one. -/
inductive Escape where
  | char (c : Char)
  | digits (count : Nat)

/-- The meaning of the character after a backslash. -/
def escape? (c : Char) : Option Escape :=
  ([('0', .char '\x00'), ('a', .char '\x07'), ('b', .char '\x08'), ('t', .char '\t'),
    ('\t', .char '\t'), ('n', .char '\n'), ('v', .char '\x0b'), ('f', .char '\x0c'),
    ('r', .char '\r'), ('e', .char '\x1b'), (' ', .char ' '), ('\x22', .char '\x22'),
    ('\x27', .char '\x27'), ('\\', .char '\\'), ('N', .char '\u0085'), ('_', .char '\u00a0'),
    ('L', .char '\u2028'), ('P', .char '\u2029'), ('x', .digits 2), ('u', .digits 4),
    ('U', .digits 8)] : List (Char × Escape)).lookup c

/-- The character with this number, unless there is none. -/
def charOfNumber? (n : Nat) : Option Char :=
  if (0xd800 ≤ n ∧ n ≤ 0xdfff) ∨ 0x10ffff < n then none else some (Char.ofNat n)

/-- Reads characters of a quoted scalar up to white space, the closing mark or an escaped line
break; says whether it was the last. -/
def quotedRun (single : Bool) :
    (fuel : Nat) → List Char → Cursor → Except Malformed (List Char × Cursor × Bool)
  | 0, text, c => .ok (text, c, false)
  | fuel + 1, text, c =>
    match c.rest with
    | [] => .ok (text, c, false)
    | ch :: rest =>
      if isGap (some ch) then .ok (text, c, false)
      else if single then
        if ch = '\x27' then
          if rest.head? = some '\x27' then quotedRun single fuel ('\x27' :: text) (c.advance 2)
          else .ok (text, c, false)
        else quotedRun single fuel (ch :: text) (c.advance 1)
      else if ch = '\x22' then .ok (text, c, false)
      else if ch = '\\' then
        match rest with
        | [] => .error .badEscape
        | e :: more =>
          if isBreak e then .ok (text, (c.advance 1).skipLine, true)
          else match escape? e with
            | some (.char d) => quotedRun single fuel (d :: text) (c.advance 2)
            | some (.digits n) =>
              let digits := more.take n
              match (hexNumber? digits).bind charOfNumber? with
              | some d =>
                if digits.length = n then quotedRun single fuel (d :: text) (c.advance (2 + n))
                else .error .badEscape
              | none => .error .badEscape
            | none => .error .badEscape
      else quotedRun single fuel (ch :: text) (c.advance 1)

/-- Reads on in a quoted scalar after its text so far. -/
def quotedOnto (single : Bool) :
    (fuel : Nat) → List Char → Cursor → Except Malformed (List Char × Cursor)
  | 0, _, _ => .error .unclosedQuote
  | fuel + 1, text, c => do
    if c.atDocumentMark || c.rest.isEmpty then throw .unclosedQuote
    let (text, c, escapedBreak) ← quotedRun single c.extent text c
    if c.at? (if single then '\x27' else '\x22') && !escapedBreak then
      return (text.reverse, c.advance 1)
    let (g, c) ← Gap.pass none c.extent { broken := escapedBreak } c
    quotedOnto single fuel (g.folded ++ text) c

/-- Reads a quoted scalar, its opening mark first. -/
def readQuoted (single : Bool) (c : Cursor) : Except Malformed (List Char × Cursor) :=
  quotedOnto single (c.extent + 1) [] (c.advance 1)

/-! ## Block scalars -/

/-- What happens to the line breaks at the end of a block scalar. -/
inductive Chomping where
  | strip
  | clip
  | keep
  deriving DecidableEq

/-- The chomping an indicator stands for. -/
def chomping? : Option Char → Option Chomping
  | some '+' => some .keep
  | some '-' => some .strip
  | _ => none

/-- The indentation an indicator gives, if it is a digit. -/
def increment? : Option Char → Option Nat
  | some c => if c.isDigit then some (c.toNat - 0x30) else none
  | none => none

/-- Reads the indicators of a block scalar, in either order. -/
def blockIndicators (c : Cursor) : Except Malformed (Chomping × Option Nat × Cursor) :=
  let checked (chomping : Chomping) (increment : Option Nat) (c : Cursor) :=
    if increment = some 0 then .error .badBlockHeader else .ok (chomping, increment, c)
  match chomping? c.head? with
  | some chomping =>
    let c := c.advance 1
    match increment? c.head? with
    | some n => checked chomping (some n) (c.advance 1)
    | none => checked chomping none c
  | none =>
    match increment? c.head? with
    | some n =>
      let c := c.advance 1
      match chomping? c.head? with
      | some chomping => checked chomping (some n) (c.advance 1)
      | none => checked .clip (some n) c
    | none => checked .clip none c

/-- Reads the header of a block scalar to the end of its line. -/
def blockHeader (c : Cursor) : Except Malformed (Chomping × Option Nat × Cursor) := do
  let (chomping, increment, c) ← blockIndicators (c.advance 1)
  let c := c.skipWhile isSpacing
  let c := if c.at? '#' then c.skipToLineEnd else c
  if !c.atLineEnd then throw .badBlockHeader
  return (chomping, increment, c.skipLine)

/-- Passes empty lines and indentation up to `indent` (zero: however much there is).  Gives the
breaks, the last first, the greatest column reached and the place. -/
def blockBreaks (indent : Nat) :
    (fuel : Nat) → List Char → Nat → Cursor → Except Malformed (List Char × Nat × Cursor)
  | 0, breaks, widest, c => .ok (breaks, widest, c)
  | fuel + 1, breaks, widest, c => do
    let spaces := (c.rest.takeWhile (· == ' ')).length
    let c := c.advance (if indent = 0 then spaces else min spaces (indent - c.column))
    let widest := max widest c.column
    if (indent = 0 ∨ c.column < indent) ∧ c.at? '\t' then throw .unexpectedTab
    if c.within isBreak then
      let (text, c) := c.readLine
      blockBreaks indent fuel (text.reverse ++ breaks) widest c
    else return (breaks, widest, c)

/-- The lines of a block scalar read so far. -/
structure BlockText where
  /-- The text, the last character first. -/
  text : List Char := []
  /-- The break at the end of the last line. -/
  lineBreak : List Char := []
  /-- The breaks after it, the last first. -/
  moreBreaks : List Char := []
  /-- Whether the last line began with white space. -/
  spaced : Bool := false

/-- Reads the lines of a block scalar that stand at the column `indent`. -/
def blockLines (literal : Bool) (indent : Nat) :
    (fuel : Nat) → BlockText → Cursor → Except Malformed (BlockText × Cursor)
  | 0, b, c => .ok (b, c)
  | fuel + 1, b, c => do
    if c.column ≠ indent ∨ c.rest = [] then return (b, c)
    let spaced := c.within isSpacing
    let joint :=
      if !literal && !b.spaced && !spaced && b.lineBreak == ['\n'] then
        (if b.moreBreaks.isEmpty then [' '] else [])
      else b.lineBreak
    let line := c.rest.takeWhile (!isBreak ·)
    let text := line.reverse ++ b.moreBreaks ++ joint.reverse ++ b.text
    let (lineBreak, c) := (c.advance line.length).readLine
    let (moreBreaks, _, c) ← blockBreaks indent c.extent [] 0 c
    blockLines literal indent fuel { text, lineBreak, moreBreaks, spaced } c

/-- Reads a block scalar in a collection indented by `parent`. -/
def readBlock (literal : Bool) (parent : Int) (c : Cursor) :
    Except Malformed (List Char × Cursor) := do
  let (chomping, increment, c) ← blockHeader c
  let given :=
    match increment with
    | some n => if 0 ≤ parent then parent.toNat + n else n
    | none => 0
  let (breaks, widest, c) ← blockBreaks given (c.extent + 1) [] 0 c
  let indent := if given = 0 then max (max widest (parent + 1).toNat) 1 else given
  let (b, c) ← blockLines literal indent (c.extent + 1) { moreBreaks := breaks } c
  let tail :=
    match chomping with
    | .strip => []
    | .clip => b.lineBreak
    | .keep => b.lineBreak ++ b.moreBreaks.reverse
  return (b.text.reverse ++ tail, c)

end Yaml

end BraceBalance
