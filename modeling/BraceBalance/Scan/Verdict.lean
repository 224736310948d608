import BraceBalance.Scan.Opener

/-!
# Scan/Verdict — the outcome of a scan

A verdict says whether every brace is matched; if not, it holds either the openers left over or
the place of the first closing brace that had nothing to close.
-/

namespace BraceBalance

/-- The class of a verdict.  Verdicts read from elsewhere may carry a number of no known class. -/
inductive VerdictKind where
  | allMatched
  | unmatchedOpen
  | unexpectedClosing
  | other (code : Int) (unknown : code < 0 ∨ 2 < code)
  deriving DecidableEq, Inhabited

namespace VerdictKind

/-- The class with the number `code`. -/
def ofCode (code : Int) : VerdictKind :=
  if h0 : code = 0 then allMatched
  else if h1 : code = 1 then unmatchedOpen
  else if h2 : code = 2 then unexpectedClosing
  else other code (by omega)

/-- The number of a class. -/
def code : VerdictKind → Int
  | allMatched => 0
  | unmatchedOpen => 1
  | unexpectedClosing => 2
  | other code _ => code

/-- A class is known by its number. -/
@[simp] theorem ofCode_code (kind : VerdictKind) : ofCode kind.code = kind := by
  cases kind with
  | allMatched | unmatchedOpen | unexpectedClosing => rfl
  | other code unknown =>
    rw [VerdictKind.code, ofCode, dif_neg (by omega), dif_neg (by omega), dif_neg (by omega)]

/-- The name of a class, as reports show it. -/
def name : VerdictKind → Bytes
  | allMatched => "ALL_MATCHED"
  | unmatchedOpen => "UNMATCHED_OPEN_COUNT"
  | unexpectedClosing => "UNEXPECTED_CLOSING"
  | other _ _ => "UNKNOWN"

end VerdictKind

/-- The outcome of a scan. -/
structure Verdict where
  kind : VerdictKind
  /-- The unmatched openers, the oldest first; a scan leaves some only in `unmatchedOpen`. -/
  opened : List Opener := []
  /-- Where the unexpected closing brace stands. -/
  closing : Position := Position.none
  deriving DecidableEq

namespace Verdict

/-- Every brace is matched. -/
def allMatched : Verdict := { kind := .allMatched }

/-- These openers are never closed. -/
def unmatchedOpen (opened : List Opener) : Verdict := { kind := .unmatchedOpen, opened }

/-- The closing brace at this place has nothing to close. -/
def unexpectedClosing (closing : Position) : Verdict := { kind := .unexpectedClosing, closing }

instance : Inhabited Verdict := ⟨allMatched⟩

/-- How many openers are unmatched. -/
def count (v : Verdict) : Nat := v.opened.length

/-- The `n` newest unmatched openers, the oldest first. -/
def tail (v : Verdict) (n : Int) : List Opener := v.opened.drop (v.count - n.toNat)

/-- The newest unmatched opener. -/
def last? (v : Verdict) : Option Opener := v.opened.getLast?

/-- Whether every brace is matched. -/
def balanced (v : Verdict) : Bool := v.kind == .allMatched

end Verdict

end BraceBalance
