import BraceBalance.Yaml.Token

/-!
# Yaml/Number — numbers in plain scalars

Whole numbers are decimal, or of another base after `0x`, `0o`, `0b` or a leading zero.  Reals are
decimal and stand for the double nearest to them, a tie going to the even one; of a real only the
whole part is kept.
-/

namespace BraceBalance

namespace Yaml

/-! ## Whole numbers -/

/-- The number digits of a base stand for. -/
def digitsIn? (base : Nat) (cs : List Char) : Option Nat :=
  cs.foldl
    (fun n c => do
      let d ← hexDigit? c
      if d < base then return base * (← n) + d else none)
    (some 0)

/-- The number a text without sign stands for, its base told by how it starts. -/
def natural? : List Char → Option Nat
  | [] => none
  | '0' :: b :: d :: rest =>
    if b = 'b' ∨ b = 'B' then digitsIn? 2 (d :: rest)
    else if b = 'o' ∨ b = 'O' then digitsIn? 8 (d :: rest)
    else if b = 'x' ∨ b = 'X' then digitsIn? 16 (d :: rest)
    else digitsIn? 8 (b :: d :: rest)
  | '0' :: rest => digitsIn? 8 rest
  | cs => digitsIn? 10 cs

/-- A text without the sign before it, and whether that is a minus. -/
def unsigned : List Char → Bool × List Char
  | '-' :: rest => (true, rest)
  | '+' :: rest => (false, rest)
  | cs => (false, cs)

/-- One more than the greatest signed word of 64 bits. -/
def wordBound : Nat := 0x8000000000000000

/-- A number with its sign, if it is a signed word of 64 bits. -/
def word? (negative : Bool) (n : Nat) : Option Int :=
  if negative then (if n ≤ wordBound then some (-(n : Int)) else none)
  else if n < wordBound then some n
  else none

/-- The number of digits of a base with a sign before them. -/
def signedIn? (base : Nat) (cs : List Char) : Option Int :=
  let (negative, digits) := unsigned cs
  if digits.isEmpty then none else (digitsIn? base digits).bind (word? negative)

/-- The whole number a text stands for: a word of 64 bits, signed or not. -/
def whole? (cs : List Char) : Option Int :=
  let (negative, digits) := unsigned cs
  match (natural? digits).bind (word? negative) with
  | some n => some n
  | none =>
    match natural? cs with
    | some n => if n < 2 * wordBound then some n else none
    | none => none

/-- The whole number a text stands for whose sign comes after the mark of its base. -/
def markedWhole? : List Char → Option Int
  | '0' :: 'b' :: rest => signedIn? 2 rest
  | '0' :: 'o' :: rest => signedIn? 8 rest
  | _ => none

/-! ## Reals -/

/-- A real, as far as a whole number can be taken from it. -/
inductive RealValue where
  | finite (whole : Int)
  | infinite (negative : Bool)
  | undefined
  deriving DecidableEq

/-- The bits of a double's significand. -/
def significandBits : Nat := 53

/-- The quotient `num / den`, a tie going to the even neighbour. -/
def roundDiv (num den : Nat) : Nat :=
  let q := num / den
  let twice := 2 * (num % den)
  if den < twice ∨ (twice = den ∧ q % 2 = 1) then q + 1 else q

/-- The whole part of the double nearest to `num / den`, where `den` is not zero. -/
def wholePart (num den : Nat) : Nat :=
  if 2 * num < den then 0
  else
    let bits := (num / den).log2 + 1
    if num < den then roundDiv (num <<< significandBits) den >>> significandBits
    else if bits ≤ significandBits then
      let shift := significandBits - bits
      roundDiv (num <<< shift) den >>> shift
    else
      let shift := bits - significandBits
      roundDiv num (den <<< shift) <<< shift

/-- The whole part of the double nearest to `digits · 10 ^ exponent`, if it is not too great. -/
def scaledWhole? (digits : Nat) (exponent : Int) : Option Nat :=
  let size : Int := (Nat.toDigits 10 digits).length + exponent
  if digits = 0 ∨ size < -400 then some 0
  else if 400 < size then none
  else
    let n := wholePart (digits * Nat.pow 10 exponent.toNat) (Nat.pow 10 (-exponent).toNat)
    if n < 1 <<< 1024 then some n else none

/-- The exponent a text stands for: nothing, or `e`, a sign and digits. -/
def exponent? : List Char → Option Int
  | [] => some 0
  | e :: rest =>
    let (negative, digits) := unsigned rest
    if (e = 'e' ∨ e = 'E') ∧ digits ≠ [] ∧ digits.all Char.isDigit then
      (digitsIn? 10 digits).map fun n => if negative then -(n : Int) else n
    else none

/-- The real a text stands for: a sign, digits with a point among them, an exponent. -/
def real? (cs : List Char) : Option Int :=
  let (negative, rest) := unsigned cs
  let before := rest.takeWhile Char.isDigit
  let (after, tail) :=
    match rest.drop before.length with
    | '.' :: more => (more.takeWhile Char.isDigit, more.dropWhile Char.isDigit)
    | more => ([], more)
  if before.isEmpty ∧ after.isEmpty then none
  else do
    let digits ← digitsIn? 10 (before ++ after)
    let whole ← scaledWhole? digits ((← exponent? tail) - after.length)
    return if negative then -(whole : Int) else whole

/-- Whether every `_` of a text stands between two digits. -/
def separatorsBetweenDigits : List Char → Bool
  | [] => true
  | c :: rest =>
    let next := rest.head?
    (c == '_' || next != some '_' || c.isDigit) &&
      (c != '_' || (next.map Char.isDigit).getD false) && separatorsBetweenDigits rest

/-- A text without its `_`. -/
def withoutSeparators (cs : List Char) : List Char := cs.filter (· ≠ '_')

end Yaml

end BraceBalance
