import BraceBalance.Text.Bytes
import Mathlib.Algebra.Group.Nat.Defs
import Mathlib.Algebra.Ring.Int.Defs

/-!
# Proofs/Word — computing with machine words

A number that is computed has to fit into a word of 64 bits, and a list is read at numbers that may
be anything.  A `Checked` computation makes these conditions visible: where one of them does not
hold it stops with the `Fault`.  Beside each operation stands the condition under which it goes
through; `Checked.bind_ok` puts such steps together.
-/

namespace BraceBalance

/-- The integers that fit into a word. -/
def IsWord (n : Int) : Prop := -2 ^ 63 ≤ n ∧ n < 2 ^ 63

instance (n : Int) : Decidable (IsWord n) := inferInstanceAs (Decidable (_ ∧ _))

/-- What stops a computation: a number that does not fit into a word, an index outside of a list,
bounds of a part of a list that are out of order or outside of it, and a number of copies below
zero. -/
inductive Fault where
  | overflow
  | index
  | bounds
  | copies
  deriving DecidableEq

/-- A computation that a fault stops. -/
abbrev Checked (α : Type) := Except Fault α

namespace Checked

variable {α β : Type}

/-- A number, to be kept in a word. -/
def word (n : Int) : Checked Int := if IsWord n then .ok n else .error .overflow

/-- The element of a list at an index. -/
def get (xs : List α) (i : Int) : Checked α :=
  if 0 ≤ i then
    match xs[i.toNat]? with
    | some x => .ok x
    | none => .error .index
  else .error .index

/-- The part of a list from one index on, up to another. -/
def part (xs : List α) (low high : Int) : Checked (List α) :=
  if 0 ≤ low ∧ low ≤ high ∧ high ≤ xs.length then .ok ((xs.take high.toNat).drop low.toNat)
  else .error .bounds

/-- Copies of a text one after the other, of a length that fits into a word. -/
def times (n : Int) (s : Bytes) : Checked Bytes :=
  if 0 ≤ n then do
    let _ ← word (n * s.length)
    return Bytes.times n.toNat s
  else .error .copies

/-- A step that goes through hands its value to the next. -/
theorem bind_ok {x : Checked α} {f : α → Checked β} {a : α} {b : β} (hx : x = .ok a)
    (hf : f a = .ok b) : x >>= f = .ok b := by
  rw [hx]
  exact hf

/-- A number that fits into a word is kept. -/
theorem word_eq {n : Int} (h : IsWord n) : word n = .ok n := if_pos h

theorem get_eq {xs : List α} {i : Int} {x : α} (hi : 0 ≤ i) (h : xs[i.toNat]? = some x) :
    get xs i = .ok x := by
  rw [get, if_pos hi, h]

/-- Bounds that are in order and inside of the list give the part between them. -/
theorem part_eq {xs : List α} {low high : Int} (hlow : 0 ≤ low) (hle : low ≤ high)
    (hhigh : high ≤ xs.length) :
    part xs low high = .ok ((xs.take high.toNat).drop low.toNat) :=
  if_pos ⟨hlow, hle, hhigh⟩

/-- The part of a list up to an index. -/
theorem part_zero {xs : List α} {i : Nat} (h : i ≤ xs.length) :
    part xs 0 i = .ok (xs.take i) :=
  part_eq (Int.le_refl 0) (Int.natCast_nonneg i) (Int.ofNat_le.2 h)

/-- Copies are made if their bytes can be counted in a word. -/
theorem times_eq {n : Nat} {s : Bytes} (h : n * s.length < 2 ^ 63) :
    times n s = .ok (Bytes.times n s) := by
  rw [times, if_pos (Int.natCast_nonneg n), ← Int.natCast_mul]
  exact bind_ok (word_eq ⟨by omega, by omega⟩) rfl

end Checked

end BraceBalance
