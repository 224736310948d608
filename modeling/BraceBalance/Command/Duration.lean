import BraceBalance.Text.Utf8

/-!
# Command/Duration — spans of time

A duration is written as numbers with units, such as `1h30m` or `1.5s`, after an optional sign, or
as a bare zero.  It is held in nanoseconds and fits a signed word of 64 bits.
-/

namespace BraceBalance

namespace Duration

/-- Why a text is no duration. -/
inductive Invalid where
  | shape (text : Bytes)
  | missingUnit (text : Bytes)
  | unknownUnit (unit text : Bytes)
  deriving DecidableEq

/-- A glyph of a text in a message: all but plain ASCII by its bytes. -/
def shownGlyph (g : Glyph) : Bytes :=
  if g.char < ' ' ∨ 0x80 ≤ g.char.toNat then g.bytes.flatMap fun b => "\\x" ++ Bytes.hexByte b
  else if g.char = '\x22' ∨ g.char = '\\' then 0x5c :: g.bytes
  else g.bytes

/-- A text in a message. -/
def shown (s : Bytes) : Bytes := "\"" ++ (Utf8.glyphs s).flatMap shownGlyph ++ "\""

/-- What is said of a text that is no duration. -/
def Invalid.message : Invalid → Bytes
  | shape text => "time: invalid duration " ++ shown text
  | missingUnit text => "time: missing unit in duration " ++ shown text
  | unknownUnit unit text =>
    "time: unknown unit " ++ shown unit ++ " in duration " ++ shown text

/-- The units in nanoseconds. -/
def units : List (Bytes × Nat) :=
  [("ns", 1), ("us", 1000), ("\u00b5s", 1000), ("\u03bcs", 1000), ("ms", 1000000),
    ("s", 1000000000), ("m", 60 * 1000000000), ("h", 3600 * 1000000000)]

/-- The greatest number of nanoseconds, of either sign. -/
def limit : Nat := 0x8000000000000000

/-- Whether a byte ends a unit. -/
def startsNumber (b : UInt8) : Bool := b == 0x2e || Bytes.isDigit b

/-- Reads a number with a unit: its nanoseconds and the rest. -/
def term (text s : Bytes) : Except Invalid (Nat × Bytes) := do
  let before := s.takeWhile Bytes.isDigit
  let rest := s.drop before.length
  let (after, rest) :=
    match rest with
    | 0x2e :: more => (more.takeWhile Bytes.isDigit, more.dropWhile Bytes.isDigit)
    | _ => ([], rest)
  let whole := Bytes.digitsValue before
  if limit < whole ∨ (before.isEmpty ∧ after.isEmpty) then throw (.shape text)
  let unit := rest.takeWhile (!startsNumber ·)
  if unit.isEmpty then throw (.missingUnit text)
  let some scale := units.lookup unit | throw (.unknownUnit unit text)
  let n := whole * scale + Bytes.digitsValue after * scale / Nat.pow 10 after.length
  if limit < n then throw (.shape text)
  return (n, rest.drop unit.length)

/-- Reads numbers with units and adds them up. -/
def terms (text : Bytes) : (fuel : Nat) → (sum : Nat) → Bytes → Except Invalid Nat
  | 0, _, _ => .error (.shape text)
  | _ + 1, sum, [] => .ok sum
  | fuel + 1, sum, s => do
    let (n, rest) ← term text s
    if limit < sum + n then throw (.shape text)
    terms text fuel (sum + n) rest

/-- The nanoseconds of a duration. -/
def ofText (text : Bytes) : Except Invalid Int := do
  let (negative, s) :=
    match text with
    | 0x2d :: rest => (true, rest)
    | 0x2b :: rest => (false, rest)
    | _ => (false, text)
  if s = [0x30] then return 0
  if s.isEmpty then throw (.shape text)
  let n ← terms text (s.length + 1) 0 s
  if negative then return -n
  if limit ≤ n then throw (.shape text)
  return n

end Duration

end BraceBalance
