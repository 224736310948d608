import BraceBalance.Scan.Opener

/-!
# Scan/OpenStack — the openers still to be closed

A stack that also lets go of the newest opener of a given kind from under newer ones of other
kinds.
-/

namespace BraceBalance

/-- Openers in the order they were pushed. -/
structure OpenStack where
  /-- The openers, the newest first. -/
  newestFirst : List Opener := []
  deriving DecidableEq, Inhabited

namespace OpenStack

/-- The stack with nothing open. -/
def empty : OpenStack := ⟨[]⟩

/-- The openers, the oldest first. -/
def entries (s : OpenStack) : List Opener := s.newestFirst.reverse

/-- How many openers there are. -/
def size (s : OpenStack) : Nat := s.newestFirst.length

/-- The stack with one opener more. -/
def push (s : OpenStack) (o : Opener) : OpenStack := ⟨o :: s.newestFirst⟩

/-- The newest opener, and the stack without it. -/
def pop? (s : OpenStack) : Option (Opener × OpenStack) :=
  match s.newestFirst with
  | [] => none
  | o :: rest => some (o, ⟨rest⟩)

/-- The newest opener of a kind, and the stack without it. -/
def removeNearest? (s : OpenStack) (kind : Kind) : Option (Opener × OpenStack) :=
  (s.newestFirst.find? (·.kind == kind)).map fun o =>
    (o, ⟨s.newestFirst.eraseP (·.kind == kind)⟩)

@[simp] theorem entries_push (s : OpenStack) (o : Opener) :
    (s.push o).entries = s.entries ++ [o] := by
  simp [entries, push]

@[simp] theorem size_push (s : OpenStack) (o : Opener) : (s.push o).size = s.size + 1 := rfl

theorem length_entries (s : OpenStack) : s.entries.length = s.size := List.length_reverse

theorem eq_empty_or_push (s : OpenStack) : s = empty ∨ ∃ below top, s = push below top := by
  obtain ⟨_ | ⟨top, rest⟩⟩ := s
  · exact .inl rfl
  · exact .inr ⟨⟨rest⟩, top, rfl⟩

theorem push_inj {s t : OpenStack} {o o' : Opener} : s.push o = t.push o' ↔ s = t ∧ o = o' := by
  cases s
  cases t
  simp [push, and_comm]

@[simp] theorem pop?_empty : empty.pop? = none := rfl

@[simp] theorem pop?_push (s : OpenStack) (o : Opener) : (s.push o).pop? = some (o, s) := rfl

theorem removeNearest?_push {s : OpenStack} {o : Opener} {kind : Kind} (h : o.kind = kind) :
    (s.push o).removeNearest? kind = some (o, s) := by
  simp [removeNearest?, push, h]

end OpenStack

end BraceBalance
