import BraceBalance.Text.Bytes
import Mathlib.Data.List.Basic
import Mathlib.Tactic.SplitIfs

/-!
# Proofs/Text/Pieces — a text between its separators

    text ──splitOn──▸ pieces ──joinWith──▸ text

Splitting a text at a byte cuts it at every one of them (`Bytes.splitOn_append_cons`) and nowhere
else (`Bytes.splitOn_of_not_mem`), and joining the pieces gives the text back
(`Bytes.joinWith_splitOn`).
-/

namespace BraceBalance

namespace Bytes

variable {sep b : UInt8}

/-! ## Splitting -/

/-- There is always a piece, be it empty. -/
theorem splitOn_ne_nil (sep : UInt8) (s : Bytes) : splitOn sep s ≠ [] := by
  rcases s with _ | ⟨b, s⟩
  · exact List.cons_ne_nil _ _
  · rw [splitOn]
    split_ifs
    · exact List.cons_ne_nil _ _
    · rcases splitOn sep s <;> exact List.cons_ne_nil _ _

/-- A separator at the start ends an empty piece. -/
theorem splitOn_cons_self (sep : UInt8) (s : Bytes) : splitOn sep (sep :: s) = [] :: splitOn sep s :=
  if_pos rfl

/-- A byte that does not separate belongs to the first piece. -/
theorem exists_splitOn_cons (h : b ≠ sep) (s : Bytes) :
    ∃ word words, splitOn sep s = word :: words ∧
      splitOn sep (b :: s) = (b :: word) :: words := by
  obtain ⟨word, words, hsplit⟩ := List.exists_cons_of_ne_nil (splitOn_ne_nil sep s)
  exact ⟨word, words, hsplit, by rw [splitOn, if_neg h, hsplit]⟩

/-- Two texts with a separator between them have the pieces of both. -/
theorem splitOn_append_cons (s t : Bytes) :
    splitOn sep (s ++ sep :: t) = splitOn sep s ++ splitOn sep t := by
  induction s with
  | nil => exact splitOn_cons_self sep t
  | cons b s ih =>
    by_cases hb : b = sep
    · rw [hb, List.cons_append, splitOn_cons_self, splitOn_cons_self, ih, List.cons_append]
    · obtain ⟨word, words, hsplit, hcons⟩ := exists_splitOn_cons hb s
      rw [List.cons_append, splitOn, if_neg hb, ih, hcons, hsplit]
      rfl

/-- A text without a separator is one piece. -/
theorem splitOn_of_not_mem {s : Bytes} (h : sep ∉ s) : splitOn sep s = [s] := by
  induction s with
  | nil => rfl
  | cons b s ih =>
    obtain ⟨hb, hs⟩ := List.ne_and_not_mem_of_not_mem_cons h
    rw [splitOn, if_neg hb.symm, ih hs]

/-- A piece is read up to the separator behind it. -/
theorem splitOn_append_of_not_mem {s : Bytes} (h : sep ∉ s) (t : Bytes) :
    splitOn sep (s ++ sep :: t) = s :: splitOn sep t := by
  rw [splitOn_append_cons, splitOn_of_not_mem h]
  rfl

/-- No piece holds the separator. -/
theorem not_mem_of_mem_splitOn {s word : Bytes} (h : word ∈ splitOn sep s) : sep ∉ word := by
  induction s generalizing word with
  | nil => exact List.mem_singleton.1 h ▸ List.not_mem_nil
  | cons b s ih =>
    by_cases hb : b = sep
    · rw [hb, splitOn_cons_self] at h
      obtain rfl | h := List.mem_cons.1 h
      · exact List.not_mem_nil
      · exact ih h
    · obtain ⟨first, words, hsplit, hcons⟩ := exists_splitOn_cons hb s
      rw [hcons] at h
      rw [hsplit] at ih
      obtain rfl | h := List.mem_cons.1 h
      · exact List.not_mem_cons_of_ne_of_not_mem (Ne.symm hb) (ih List.mem_cons_self)
      · exact ih (List.mem_cons_of_mem _ h)

/-! ## Joining -/

theorem joinWith_singleton (word : Bytes) : joinWith [sep] [word] = word :=
  List.intercalate_singleton

theorem joinWith_cons_cons (word next : Bytes) (words : List Bytes) :
    joinWith [sep] (word :: next :: words) = word ++ sep :: joinWith [sep] (next :: words) := by
  rw [joinWith, List.intercalate_cons_cons, List.append_assoc]
  rfl

/-- **Joining undoes splitting.** -/
theorem joinWith_splitOn (sep : UInt8) (s : Bytes) : joinWith [sep] (splitOn sep s) = s := by
  induction s with
  | nil => rfl
  | cons b s ih =>
    obtain ⟨word, words, hsplit⟩ := List.exists_cons_of_ne_nil (splitOn_ne_nil sep s)
    rw [hsplit] at ih
    by_cases hb : b = sep
    · rw [hb, splitOn_cons_self, hsplit, joinWith_cons_cons, ih, List.nil_append]
    · rw [splitOn, if_neg hb, hsplit]
      rcases words with _ | ⟨next, words⟩
      · rw [joinWith_singleton] at ih ⊢
        rw [ih]
      · rw [joinWith_cons_cons] at ih ⊢
        rw [List.cons_append, ih]

/-- Splitting undoes joining, if no piece holds the separator. -/
theorem splitOn_joinWith {word : Bytes} {words : List Bytes} (h : ∀ w ∈ word :: words, sep ∉ w) :
    splitOn sep (joinWith [sep] (word :: words)) = word :: words := by
  induction words generalizing word with
  | nil =>
    rw [joinWith_singleton]
    exact splitOn_of_not_mem (h word List.mem_cons_self)
  | cons next words ih =>
    obtain ⟨hword, hwords⟩ := List.forall_mem_cons.1 h
    rw [joinWith_cons_cons, splitOn_append_of_not_mem hword, ih hwords]

theorem mem_joinWith_of_mem {words : List Bytes} {word : Bytes} (h : word ∈ words)
    (hb : b ∈ word) : b ∈ joinWith [sep] words := by
  induction words with
  | nil => exact absurd h List.not_mem_nil
  | cons first words ih =>
    rcases words with _ | ⟨next, words⟩
    · rw [joinWith_singleton]
      exact List.mem_singleton.1 h ▸ hb
    · rw [joinWith_cons_cons, List.mem_append, List.mem_cons]
      obtain rfl | h := List.mem_cons.1 h
      · exact .inl hb
      · exact .inr (.inr (ih h))

/-- A byte of pieces that are joined separates them or belongs to one. -/
theorem exists_mem_of_mem_joinWith {words : List Bytes} (h : b ∈ joinWith [sep] words) :
    b = sep ∨ ∃ word ∈ words, b ∈ word := by
  induction words with
  | nil => exact absurd h List.not_mem_nil
  | cons word words ih =>
    rcases words with _ | ⟨next, words⟩
    · rw [joinWith_singleton] at h
      exact .inr ⟨word, List.mem_singleton_self word, h⟩
    · rw [joinWith_cons_cons, List.mem_append, List.mem_cons] at h
      obtain h | rfl | h := h
      · exact .inr ⟨word, List.mem_cons_self, h⟩
      · exact .inl rfl
      · exact (ih h).imp_right fun ⟨w, hw, hb⟩ => ⟨w, List.mem_cons_of_mem word hw, hb⟩

end Bytes

end BraceBalance
