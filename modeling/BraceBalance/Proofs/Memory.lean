import Mathlib.Data.List.Basic
import Mathlib.Tactic.SplitIfs

/-!
# Proofs/Memory — slices, and the arrays they share

A slice is the beginning of an array, which may have more cells than the slice.  What is appended is
written into these cells if there are enough of them, and otherwise goes to a new array together with
what the slice holds.  Either way the slice then holds its elements and the new ones
(`Memory.contents_append`): whatever the cells behind it held before is lost, but a slice of another
array sees nothing of it.
-/

namespace BraceBalance

/-- Arrays, by number. -/
structure Memory (α : Type) where
  arrays : List (List α) := []

/-- The first cells of an array. -/
structure Slice where
  array : Nat
  length : Nat

namespace Memory

variable {α : Type}

/-- The cells of an array; where there is no array there are none. -/
def cells (m : Memory α) (array : Nat) : List α := m.arrays.getD array []

/-- What a slice holds. -/
def contents (m : Memory α) (s : Slice) : List α := (m.cells s.array).take s.length

/-- The memory with the cells of one array changed. -/
def modify (m : Memory α) (array : Nat) (f : List α → List α) : Memory α :=
  ⟨m.arrays.modify array f⟩

/-- The memory with one array more. -/
def allocate (m : Memory α) (cells : List α) : Memory α := ⟨m.arrays ++ [cells]⟩

/-- What a new array has behind the elements it is taken up for, given how many cells the old array
has and how many elements there are.  Nothing is assumed of it. -/
abbrev Room (α : Type) := Nat → Nat → List α

/-- A slice with elements appended: in its own array if that has cells enough, in a new one if
not. -/
def append (room : Room α) (m : Memory α) (s : Slice) (xs : List α) : Memory α × Slice :=
  let capacity := (m.cells s.array).length
  let length := s.length + xs.length
  if length ≤ capacity then
    (m.modify s.array fun cells => cells.take s.length ++ xs ++ cells.drop length,
      ⟨s.array, length⟩)
  else (m.allocate (m.contents s ++ xs ++ room capacity length), ⟨m.arrays.length, length⟩)

/-! ## Cells

What is written to one array, and an array taken up anew, leaves all others as they are. -/

section

variable {m : Memory α} {array other : Nat}

theorem cells_modify_self (h : array < m.arrays.length) (f : List α → List α) :
    (m.modify array f).cells array = f (m.cells array) := by
  simp [cells, modify, h]

/-- No other array is changed. -/
theorem cells_modify_other (h : other ≠ array) (f : List α → List α) :
    (m.modify array f).cells other = m.cells other := by
  simp [cells, modify, h.symm]

@[simp] theorem length_modify (m : Memory α) (array : Nat) (f : List α → List α) :
    (m.modify array f).arrays.length = m.arrays.length := List.length_modify _ _ _

theorem cells_allocate_new (m : Memory α) (cs : List α) :
    (m.allocate cs).cells m.arrays.length = cs := by
  simp [cells, allocate]

/-- The arrays that were there keep their cells. -/
theorem cells_allocate_other (h : array < m.arrays.length) (cs : List α) :
    (m.allocate cs).cells array = m.cells array := by
  simp [cells, allocate, List.getElem?_append_left h]

@[simp] theorem length_allocate (m : Memory α) (cs : List α) :
    (m.allocate cs).arrays.length = m.arrays.length + 1 := by
  simp [allocate]

end

/-- A slice of an array that is there, and has as many cells. -/
structure Has (m : Memory α) (s : Slice) : Prop where
  array_lt : s.array < m.arrays.length
  length_le : s.length ≤ (m.cells s.array).length

variable {m : Memory α} {s : Slice}

/-- A slice holds as many elements as it is long. -/
theorem Has.length_contents (h : m.Has s) : (m.contents s).length = s.length :=
  List.length_take_of_le h.length_le

/-- A slice cut short. -/
theorem Has.take (h : m.Has s) {n : Nat} (hn : n ≤ s.length) :
    m.Has ⟨s.array, n⟩ ∧ m.contents ⟨s.array, n⟩ = (m.contents s).take n := by
  refine ⟨⟨h.array_lt, Nat.le_trans hn h.length_le⟩, ?_⟩
  rw [contents, contents, List.take_take, Nat.min_eq_left hn]

/-- A slice sees nothing of a change to another array. -/
theorem contents_modify_other {array : Nat} (h : s.array ≠ array) (f : List α → List α) :
    (m.modify array f).contents s = m.contents s := by
  rw [contents, cells_modify_other h, contents]

theorem Has.modify_other (h : m.Has s) {array : Nat} (hne : s.array ≠ array)
    (f : List α → List α) : (m.modify array f).Has s := by
  refine ⟨?_, ?_⟩
  · rw [length_modify]
    exact h.array_lt
  · rw [cells_modify_other hne]
    exact h.length_le

/-- A slice sees nothing of a new array. -/
theorem contents_allocate (h : m.Has s) (cs : List α) :
    (m.allocate cs).contents s = m.contents s := by
  rw [contents, cells_allocate_other h.array_lt, contents]

theorem Has.allocate (h : m.Has s) (cs : List α) : (m.allocate cs).Has s := by
  refine ⟨?_, ?_⟩
  · rw [length_allocate]
    exact Nat.lt_succ_of_lt h.array_lt
  · rw [cells_allocate_other h.array_lt]
    exact h.length_le

/-! ## Appending -/

/-- The slice appended to stays in its array or moves to one that was not there before. -/
theorem append_array (room : Room α) (m : Memory α) (s : Slice) (xs : List α) :
    (m.append room s xs).2.array = s.array ∨ (m.append room s xs).2.array = m.arrays.length := by
  rw [append]
  split_ifs
  · exact .inl rfl
  · exact .inr rfl

/-- No array goes away. -/
theorem length_le_append (room : Room α) (m : Memory α) (s : Slice) (xs : List α) :
    m.arrays.length ≤ (m.append room s xs).1.arrays.length := by
  rw [append]
  split_ifs
  · exact Nat.le_of_eq (length_modify _ _ _).symm
  · rw [length_allocate]
    exact Nat.le_succ _

/-- **A slice that is appended to holds its elements and the new ones**, wherever they went. -/
theorem contents_append (h : m.Has s) (room : Room α) (xs : List α) :
    (m.append room s xs).1.Has (m.append room s xs).2 ∧
      (m.append room s xs).1.contents (m.append room s xs).2 = m.contents s ++ xs := by
  have hlength : (m.contents s ++ xs).length = s.length + xs.length := by
    rw [List.length_append, h.length_contents]
  rw [append]
  split_ifs with hroom
  · -- In place: the cells in front stay, and those behind are not the slice's.
    refine ⟨⟨?_, ?_⟩, ?_⟩
    · rw [length_modify]
      exact h.array_lt
    · rw [cells_modify_self h.array_lt]
      simp only [List.length_append, List.length_take, List.length_drop]
      omega
    · rw [contents, cells_modify_self h.array_lt]
      exact List.take_left' hlength
  · refine ⟨⟨?_, ?_⟩, ?_⟩
    · rw [length_allocate]
      exact Nat.lt_succ_self _
    · rw [cells_allocate_new, List.length_append, hlength]
      exact Nat.le_add_right _ _
    · rw [contents, cells_allocate_new]
      exact List.take_left' hlength

end Memory

end BraceBalance
