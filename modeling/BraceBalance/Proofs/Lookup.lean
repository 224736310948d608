import Mathlib.Data.List.Nodup

/-!
# Proofs/Lookup — entries read by their keys

A look-up gives the first entry of a key.  Where keys are distinct it gives the entry, wherever it
stands (`lookup_eq_some_iff_mem`); so two such lists that have the same entries of a key are looked
up alike, in whatever order they are (`lookup_congr`).
-/

namespace BraceBalance

variable {α β : Type} [BEq α] [LawfulBEq α] {entries others : List (α × β)} {key other : α}

section

variable [DecidableEq α]

/-- A key that is filtered out is not found. -/
theorem lookup_filter_self (entries : List (α × β)) (key : α) :
    (entries.filter (·.1 ≠ key)).lookup key = none := by
  refine List.lookup_eq_none_iff.2 fun entry hentry => ?_
  have hne : entry.1 ≠ key := of_decide_eq_true (List.mem_filter.1 hentry).2
  exact bne_iff_ne.2 hne.symm

/-- Every other key is found as before. -/
theorem lookup_filter_ne (h : other ≠ key) (entries : List (α × β)) :
    (entries.filter (·.1 ≠ key)).lookup other = entries.lookup other := by
  induction entries with
  | nil => rfl
  | cons entry entries ih =>
    by_cases hentry : entry.1 = key
    · have hskip : (other == entry.1) = false := beq_false_of_ne (hentry ▸ h)
      rw [List.filter_cons_of_neg (by simpa using hentry), ih, List.lookup_cons, hskip]
    · rw [List.filter_cons_of_pos (by simpa using hentry), List.lookup_cons, List.lookup_cons, ih]

/-- A key that is not found can be filtered out to no effect. -/
theorem filter_eq_self_of_lookup (h : entries.lookup key = none) :
    entries.filter (·.1 ≠ key) = entries := by
  refine List.filter_eq_self.2 fun entry hentry => decide_eq_true fun heq => ?_
  have hne := List.lookup_eq_none_iff.1 h entry hentry
  exact bne_iff_ne.1 hne heq.symm

end

theorem mem_of_lookup {value : β} (h : entries.lookup key = some value) :
    (key, value) ∈ entries := by
  obtain ⟨earlier, later, rfl, -⟩ := List.lookup_eq_some_iff.1 h
  exact List.mem_append_right _ List.mem_cons_self

/-- Where no key comes twice, each entry is the one that is found. -/
theorem lookup_eq_some_iff_mem (h : (entries.map Prod.fst).Nodup) {value : β} :
    entries.lookup key = some value ↔ (key, value) ∈ entries := by
  refine ⟨mem_of_lookup, fun hmem => ?_⟩
  obtain ⟨earlier, later, rfl⟩ := List.append_of_mem hmem
  rw [List.map_append, List.map_cons, List.nodup_middle, List.nodup_cons] at h
  refine List.lookup_eq_some_iff.2 ⟨earlier, later, rfl, fun other hother => bne_iff_ne.2 ?_⟩
  intro heq
  exact h.1 (List.mem_append_left _ (List.mem_map.2 ⟨other, hother, heq.symm⟩))

/-- Where no key comes twice, the order of the entries does not matter. -/
theorem lookup_congr (h : (entries.map Prod.fst).Nodup) (h' : (others.map Prod.fst).Nodup)
    (hsame : ∀ value, (key, value) ∈ entries ↔ (key, value) ∈ others) :
    entries.lookup key = others.lookup key := by
  refine Option.ext fun value => ?_
  rw [lookup_eq_some_iff_mem h, lookup_eq_some_iff_mem h', hsame]

end BraceBalance
