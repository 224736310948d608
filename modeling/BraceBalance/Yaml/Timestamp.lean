import BraceBalance.Yaml.Token

/-!
# Yaml/Timestamp — dates and times in plain scalars

A timestamp is a date, alone or with a time of day after it: after `T` or `t` with an offset, or
after spaces without one.
-/

namespace BraceBalance

namespace Yaml

namespace Timestamp

/-- Reads a number of one or two digits that is less than `bound`. -/
def number? (bound : Nat) : List Char → Option (Nat × List Char)
  | [] => none
  | c :: rest =>
    if !c.isDigit then none
    else
      let n := c.toNat - 0x30
      let (n, rest) :=
        match rest with
        | d :: more => if d.isDigit then (10 * n + (d.toNat - 0x30), more) else (n, rest)
        | [] => (n, rest)
      if n < bound then some (n, rest) else none

/-- Reads a character. -/
def sign? (c : Char) : List Char → Option (List Char)
  | d :: rest => if c = d then some rest else none
  | [] => none

/-- The number of days of a month. -/
def daysIn (year month : Nat) : Nat :=
  if month = 2 then
    (if year % 4 = 0 ∧ (year % 100 ≠ 0 ∨ year % 400 = 0) then 29 else 28)
  else if month = 4 ∨ month = 6 ∨ month = 9 ∨ month = 11 then 30
  else 31

/-- Reads a date: four digits of the year, the month and the day. -/
def date? (cs : List Char) : Option (List Char) := do
  let digits := cs.takeWhile Char.isDigit
  if digits.length ≠ 4 then none
  let year := digits.foldl (fun n d => 10 * n + (d.toNat - 0x30)) 0
  let (month, cs) ← number? 13 (← sign? '-' (cs.drop 4))
  let (day, cs) ← number? 32 (← sign? '-' cs)
  if 1 ≤ month ∧ 1 ≤ day ∧ day ≤ daysIn year month then some cs else none

/-- Passes a fraction of a second, if there is one. -/
def skipFraction : List Char → List Char
  | '.' :: d :: rest => if d.isDigit then rest.dropWhile Char.isDigit else '.' :: d :: rest
  | ',' :: d :: rest => if d.isDigit then rest.dropWhile Char.isDigit else ',' :: d :: rest
  | cs => cs

/-- Reads a time of day. -/
def time? (cs : List Char) : Option (List Char) := do
  let (_, cs) ← number? 24 cs
  let (_, cs) ← number? 60 (← sign? ':' cs)
  let (_, cs) ← number? 60 (← sign? ':' cs)
  return skipFraction cs

/-- Whether a text is an offset from universal time: `Z`, or a sign, hours and minutes. -/
def isOffset : List Char → Bool
  | ['Z'] => true
  | [s, a, b, ':', c, d] =>
    (s == '+' || s == '-') && [a, b, c, d].all Char.isDigit &&
      10 * (a.toNat - 0x30) + (b.toNat - 0x30) ≤ 24 && 10 * (c.toNat - 0x30) + (d.toNat - 0x30) ≤ 60
  | _ => false

end Timestamp

/-- Whether a text is a timestamp. -/
def isTimestamp (cs : List Char) : Bool :=
  match Timestamp.date? cs with
  | none => false
  | some [] => true
  | some (c :: rest) =>
    if c = 'T' ∨ c = 't' then (Timestamp.time? rest).any Timestamp.isOffset
    else c == ' ' && (Timestamp.time? (rest.dropWhile (· == ' '))).any List.isEmpty

end Yaml

end BraceBalance
