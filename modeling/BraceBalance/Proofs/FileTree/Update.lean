import BraceBalance.FileTree.Update
import BraceBalance.Proofs.Lookup
import Mathlib.Data.List.Basic
import Mathlib.Tactic.SplitIfs

/-!
# Proofs/FileTree/Update — what is written is what is read

A file that is written stands where its path leads, through whatever links.  With the new file in
place a path is followed as before until it meets the file, and there it ends or is refused; so
whoever reads the path again gets what was written.
-/

namespace BraceBalance

namespace FileTree

/-! ## Nodes -/

/-- A node that is put stands where it was put. -/
theorem node?_set_self (t : FileTree) (at_ : Location) (node : Node) :
    (t.set at_ node).node? at_ = some node := by
  rw [node?, set, List.lookup_append, lookup_filter_self, Option.none_or, List.lookup_cons_self]

/-- All other locations have the nodes they had. -/
theorem node?_set_of_ne (t : FileTree) {at_ other : Location} (h : other ≠ at_) (node : Node) :
    (t.set at_ node).node? other = t.node? other := by
  rw [node?, set, List.lookup_append, lookup_filter_ne h, List.lookup_cons, beq_false_of_ne h,
    List.lookup_nil, Option.or_none, node?]

/-! ## Following a path past a new file

Nothing is asked of the location of the file, so a directory may go; then what was below it cannot
be reached. -/

section

variable (t : FileTree) (followLast : Bool) (file : Location) (content : Bytes)

/-- No name leads on from a file. -/
theorem advance_set_self (names : List Bytes) :
    (t.set file (.file content)).advance followLast file names = .arrived file ∨
      ∃ cause, (t.set file (.file content)).advance followLast file names = .stuck cause := by
  cases names with
  | nil => exact .inl rfl
  | cons name rest =>
    rw [advance, node?_set_self, if_pos nofun]
    exact .inr ⟨_, rfl⟩

/-- With a file put anywhere, names lead to the file, are refused, or lead where they led. -/
theorem advance_set (at_ : Location) (names : List Bytes) :
    (t.set file (.file content)).advance followLast at_ names = .arrived file ∨
      (∃ cause, (t.set file (.file content)).advance followLast at_ names = .stuck cause) ∨
      (t.set file (.file content)).advance followLast at_ names =
        t.advance followLast at_ names := by
  induction names generalizing at_ with
  | nil => exact .inr (.inr rfl)
  | cons name rest ih =>
    by_cases hhere : at_ = file
    · subst hhere
      exact (advance_set_self t followLast at_ content (name :: rest)).imp_right .inl
    · rw [advance, advance, t.node?_set_of_ne hhere]
      by_cases hdir : t.node? at_ ≠ some .dir
      · rw [if_pos hdir, if_pos hdir]
        exact .inr (.inr rfl)
      by_cases hdot : name = Path.here
      · simp only [if_neg hdir, if_pos hdot]
        exact ih at_
      by_cases hdots : name = Path.above
      · simp only [if_neg hdir, if_neg hdot, if_pos hdots]
        exact ih at_.dropLast
      by_cases hlong : name.length > maxName
      · simp only [if_neg hdir, if_neg hdot, if_neg hdots, if_pos hlong]
        exact .inr (.inr trivial)
      simp only [if_neg hdir, if_neg hdot, if_neg hdots, if_neg hlong]
      by_cases hnext : at_ ++ [name] = file
      · rw [hnext, node?_set_self]
        exact (advance_set_self t followLast file content rest).imp_right .inl
      · rw [t.node?_set_of_ne hnext]
        cases t.node? (at_ ++ [name]) with
        | none => exact .inr (.inr rfl)
        | some node =>
          cases node with
          | link target => exact .inr (.inr rfl)
          | dir => exact ih _
          | file _ => exact ih _

/-- The same through any number of links. -/
theorem follow_set (links : Nat) (at_ : Location) (names : List Bytes) :
    (t.set file (.file content)).follow followLast links at_ names = .ok (.present file) ∨
      (∃ cause, (t.set file (.file content)).follow followLast links at_ names = .error cause) ∨
      (t.set file (.file content)).follow followLast links at_ names =
        t.follow followLast links at_ names := by
  induction links generalizing at_ names with
  | zero =>
    rw [follow, follow]
    rcases advance_set t followLast file content at_ names with h | ⟨cause, h⟩ | h <;> rw [h]
    · exact .inl rfl
    · exact .inr (.inl ⟨cause, rfl⟩)
    · exact .inr (.inr rfl)
  | succ links ih =>
    rw [follow, follow]
    rcases advance_set t followLast file content at_ names with h | ⟨cause, h⟩ | h <;> rw [h]
    · exact .inl rfl
    · exact .inr (.inl ⟨cause, rfl⟩)
    · cases t.advance followLast at_ names with
      | link parent target rest => exact ih _ _
      | arrived l => exact .inr (.inr rfl)
      | missing parent name => exact .inr (.inr rfl)
      | stuck cause => exact .inr (.inr rfl)

/-- With a new file in place a path leads to the file, nowhere, or where it led before. -/
theorem resolve_set (path : Bytes) :
    (t.set file (.file content)).resolve followLast path = .ok (.present file) ∨
      (∃ cause, (t.set file (.file content)).resolve followLast path = .error cause) ∨
      (t.set file (.file content)).resolve followLast path = t.resolve followLast path := by
  rw [resolve, resolve, resolveSteps, resolveSteps]
  split_ifs
  · exact .inr (.inr rfl)
  · exact .inr (.inr rfl)
  · exact .inr (.inr rfl)
  · exact follow_set t followLast file content _ _ _

end

/-! ## Reading back -/

/-- A file is written at the location its path leads to. -/
theorem exists_set_of_create {t made : FileTree} {path content : Bytes}
    (h : t.create path content = .ok made) :
    ∃ file, made = t.set file (.file content) ∧
      ∀ l, t.resolve true path = .ok (.present l) → l = file := by
  rw [create] at h
  split_ifs at h
  · split at h <;> cases h
  · cases hplace : t.resolve true path with
    | error cause => simp [hplace] at h
    | ok place =>
      cases place with
      | absent parent name =>
        simp only [hplace] at h
        exact ⟨_, (Except.ok.inj h).symm, nofun⟩
      | present l =>
        simp only [hplace] at h
        split_ifs at h
        refine ⟨l, (Except.ok.inj h).symm, fun other hother => ?_⟩
        cases hother
        rfl

theorem node?_of_read {t : FileTree} {path content : Bytes} (h : t.read path = .ok content) :
    ∃ l, t.resolve true path = .ok (.present l) ∧ t.node? l = some (.file content) := by
  rw [read, locate] at h
  cases hplace : t.resolve true path with
  | error cause => simp [hplace] at h
  | ok place =>
    cases place with
    | absent parent name => simp [hplace] at h
    | present l =>
      refine ⟨l, rfl, ?_⟩
      cases hnode : t.node? l with
      | none => simp [hplace, hnode] at h
      | some node =>
        simp only [hplace, hnode] at h
        cases node with
        | dir => cases h
        | link target => cases h
        | file found => rw [Except.ok.inj h]

/-- **What is written into a file is what is read there.** -/
theorem eq_of_read_create {t made : FileTree} {path content read : Bytes}
    (h : t.create path content = .ok made) (hread : made.read path = .ok read) :
    read = content := by
  obtain ⟨file, rfl, hfile⟩ := exists_set_of_create h
  obtain ⟨l, hl, hnode⟩ := node?_of_read hread
  have heq : l = file := by
    rcases resolve_set t true file content path with hset | ⟨cause, hset⟩ | hset
    · rw [hset] at hl
      cases hl
      rfl
    · rw [hset] at hl
      cases hl
    · exact hfile l (hset ▸ hl)
  rw [heq, node?_set_self] at hnode
  cases hnode
  rfl

end FileTree

end BraceBalance
