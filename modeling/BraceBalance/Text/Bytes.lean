/-!
# Text/Bytes — byte strings

Sources, paths and every text the program writes are byte strings; nothing is assumed about their
encoding.  A string literal stands for its UTF-8 bytes.
-/

namespace BraceBalance

/-- A byte string. -/
abbrev Bytes := List UInt8

/-- A string read as its UTF-8 bytes. -/
def utf8 (s : String) : Bytes := s.toUTF8.data.toList

instance : Coe String Bytes := ⟨utf8⟩

namespace Bytes

/-- The string these bytes spell, if they are well-formed UTF-8. -/
def toString? (s : Bytes) : Option String := String.fromUTF8? ⟨s.toArray⟩

/-- `n` copies of `s`, one after the other. -/
def times (n : Nat) (s : Bytes) : Bytes := (List.replicate n s).flatten

/-- `n` spaces. -/
def spaces (n : Nat) : Bytes := List.replicate n 0x20

/-- `s` with spaces before it until it is at least `n` bytes long. -/
def padLeft (n : Nat) (s : Bytes) : Bytes := spaces (n - s.length) ++ s

/-- The pieces of `s` between occurrences of `sep`; one more than there are occurrences. -/
def splitOn (sep : UInt8) : Bytes → List Bytes
  | [] => [[]]
  | b :: rest =>
    if b = sep then [] :: splitOn sep rest
    else match splitOn sep rest with
      | [] => [[b]]
      | word :: words => (b :: word) :: words

/-- The pieces of a list joined by `sep`. -/
def joinWith (sep : Bytes) (words : List Bytes) : Bytes := sep.intercalate words

/-- `s` without the first bytes `start`, or `s` itself if it does not begin with them. -/
def dropStart (start s : Bytes) : Bytes :=
  if start.isPrefixOf s then s.drop start.length else s

/-- Whether `sub` occurs somewhere in `s`. -/
def hasInfix (sub : Bytes) : Bytes → Bool
  | [] => sub.isEmpty
  | b :: rest => sub.isPrefixOf (b :: rest) || hasInfix sub rest

/-- Bytewise order, a shorter string before its extensions. -/
def le (s t : Bytes) : Bool := !decide (t < s)

/-- A digit of base sixteen, in lower case. -/
def hexDigit (n : Nat) : UInt8 :=
  if n < 10 then (0x30 + n).toUInt8 else (0x57 + n).toUInt8

/-- A byte as two digits of base sixteen. -/
def hexByte (b : UInt8) : Bytes := [hexDigit (b.toNat / 16), hexDigit (b.toNat % 16)]

/-- A byte string written in base sixteen. -/
def hex (s : Bytes) : Bytes := s.flatMap hexByte

/-- The value of a digit of base sixteen, in either case. -/
def hexValue? (b : UInt8) : Option Nat :=
  if 0x30 ≤ b ∧ b ≤ 0x39 then some (b.toNat - 0x30)
  else if 0x61 ≤ b ∧ b ≤ 0x66 then some (b.toNat - 0x57)
  else if 0x41 ≤ b ∧ b ≤ 0x46 then some (b.toNat - 0x37)
  else none

/-- The byte string written in base sixteen, if every byte has its two digits. -/
def ofHex? : Bytes → Option Bytes
  | [] => some []
  | [_] => none
  | high :: low :: rest => do
    let h ← hexValue? high
    let l ← hexValue? low
    return (h * 16 + l).toUInt8 :: (← ofHex? rest)

/-- Whether a byte is a decimal digit. -/
def isDigit (b : UInt8) : Bool := 0x30 ≤ b && b ≤ 0x39

/-- A natural number in decimal. -/
def ofNat (n : Nat) : Bytes := (Nat.toDigits 10 n).map fun c => c.toNat.toUInt8

/-- An integer in decimal. -/
def ofInt (n : Int) : Bytes := if n < 0 then 0x2d :: ofNat n.natAbs else ofNat n.natAbs

/-- The number a run of decimal digits stands for. -/
def digitsValue (s : Bytes) : Nat := s.foldl (fun n b => 10 * n + (b.toNat - 0x30)) 0

end Bytes

end BraceBalance
