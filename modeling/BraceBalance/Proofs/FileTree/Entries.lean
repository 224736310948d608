import BraceBalance.Proofs.FileTree.Resolution
import Mathlib.Data.List.Induction
import Mathlib.Data.List.Sort

/-!
# Proofs/FileTree/Entries — what stands in and below a directory

Every location below a directory lies behind one of its entries: it is the entry itself, or the
entry is a directory and the location lies below that (`WellFormed.mem_below_cons`).
-/

namespace BraceBalance

/-- What is picked from a list, each seen as what it was picked from, is part of the list. -/
theorem map_filterMap_sublist {α β γ : Type} {pick : α → Option β} {f : β → γ} {g : α → γ}
    (h : ∀ a b, pick a = some b → f b = g a) (l : List α) :
    ((l.filterMap pick).map f).Sublist (l.map g) := by
  induction l with
  | nil => exact List.Sublist.slnil
  | cons a l ih =>
    rcases hpick : pick a with _ | b
    · rw [List.filterMap_cons_none hpick]
      exact ih.cons _
    · rw [List.filterMap_cons_some hpick, List.map_cons, h a b hpick]
      exact ih.cons_cons _

namespace FileTree

variable {t : FileTree} {at_ l : Location} {names more : List Bytes} {name : Bytes} {node : Node}

/-! ## Below

What is below a location is a list of names and nodes; the location itself is cut off from each. -/

/-- Of the nodes of a tree, those below a location are the ones whose location goes on behind it. -/
theorem below_eq_some_iff {entry : Location × Node} {found : List Bytes × Node} :
    (if at_.isPrefixOf entry.1 && entry.1 ≠ at_ then
      some (entry.1.drop at_.length, entry.2) else none) = some found ↔
      entry = (at_ ++ found.1, found.2) ∧ found.1 ≠ [] := by
  obtain ⟨l, node⟩ := entry
  obtain ⟨names, other⟩ := found
  constructor
  · intro h
    split_ifs at h with hbelow
    obtain ⟨hstarts, hne⟩ := Bool.and_eq_true_iff.1 hbelow
    obtain ⟨rest, rfl⟩ := List.isPrefixOf_iff_prefix.1 hstarts
    rw [List.drop_left] at h
    obtain ⟨rfl, rfl⟩ := Prod.mk.inj (Option.some.inj h)
    refine ⟨rfl, fun hnil => of_decide_eq_true hne ?_⟩
    rw [show rest = [] from hnil, List.append_nil]
  · rintro ⟨hentry, hne⟩
    obtain ⟨rfl, rfl⟩ := Prod.mk.inj hentry
    have hstarts : at_.isPrefixOf (at_ ++ names) = true :=
      List.isPrefixOf_iff_prefix.2 (List.prefix_append at_ names)
    have hbelow : at_ ++ names ≠ at_ := by simpa using hne
    rw [if_pos (by simp [hstarts, hbelow]), List.drop_left]

/-- What is below a location stands at names behind it, at least one. -/
theorem mem_below_iff :
    (names, node) ∈ t.below at_ ↔ (at_ ++ names, node) ∈ t.nodes ∧ names ≠ [] := by
  rw [below, List.mem_filterMap]
  constructor
  · rintro ⟨entry, hmem, hsome⟩
    obtain ⟨rfl, hne⟩ := below_eq_some_iff.1 hsome
    exact ⟨hmem, hne⟩
  · rintro ⟨hmem, hne⟩
    exact ⟨(at_ ++ names, node), hmem,
      @below_eq_some_iff at_ (at_ ++ names, node) (names, node) |>.2 ⟨rfl, hne⟩⟩

/-- An entry of a directory stands one name behind it. -/
theorem mem_entries_iff : (name, node) ∈ t.entries at_ ↔ (at_ ++ [name], node) ∈ t.nodes := by
  rw [entries, List.mem_mergeSort, List.mem_filterMap]
  constructor
  · rintro ⟨⟨names, other⟩, hmem, hsome⟩
    rcases names with _ | ⟨first, _ | ⟨second, rest⟩⟩
    · cases hsome
    · cases hsome
      exact (mem_below_iff.1 hmem).1
    · cases hsome
  · intro hmem
    exact ⟨([name], node), mem_below_iff.2 ⟨hmem, List.cons_ne_nil _ _⟩, rfl⟩

namespace WellFormed

variable (h : t.WellFormed)

include h

/-- In a well-formed tree every node stands where it is listed. -/
theorem node?_of_mem (hmem : (l, node) ∈ t.nodes) : t.node? l = some node :=
  (lookup_eq_some_iff_mem h.distinct).2 hmem

theorem isName_of_mem_below (hmem : (names, node) ∈ t.below at_) :
    ∀ name ∈ names, Path.IsName name :=
  fun name hname => h.named _ (mem_below_iff.1 hmem).1 name (List.mem_append_right _ hname)

theorem isName_of_mem_entries (hmem : (name, node) ∈ t.entries at_) : Path.IsName name :=
  h.named _ (mem_entries_iff.1 hmem) name (List.mem_append_right _ List.mem_cons_self)

/-- No names lead from a location to two nodes. -/
theorem below_names_nodup (at_ : Location) : ((t.below at_).map Prod.fst).Nodup := by
  have hsub : ((t.below at_).map fun entry => at_ ++ entry.1).Sublist (t.nodes.map Prod.fst) := by
    refine map_filterMap_sublist (fun entry found hsome => ?_) t.nodes
    rw [(below_eq_some_iff.1 hsome).1]
  refine List.Nodup.of_map (at_ ++ ·) ?_
  rw [List.map_map]
  exact h.distinct.sublist hsub

/-- No directory has two entries of one name. -/
theorem entries_names_nodup (at_ : Location) : ((t.entries at_).map Prod.fst).Nodup := by
  rw [entries, ((List.mergeSort_perm _ _).map Prod.fst).nodup_iff]
  generalize hpicked : (t.below at_).filterMap _ = picked
  have hsub : (picked.map fun entry => [entry.1]).Sublist ((t.below at_).map Prod.fst) := by
    rw [← hpicked]
    refine map_filterMap_sublist (fun entry found hsome => ?_) _
    obtain ⟨_ | ⟨first, _ | ⟨second, rest⟩⟩, other⟩ := entry
    · cases hsome
    · cases hsome
      rfl
    · cases hsome
  refine List.Nodup.of_map ([·]) ?_
  rw [List.map_map]
  exact (h.below_names_nodup at_).sublist hsub

/-- What a location below a directory lies behind is a directory. -/
theorem dir_of_append (hne : more ≠ []) (hnode : t.node? (l ++ more) = some node) :
    t.node? l = some .dir := by
  induction more using List.reverseRecOn generalizing node with
  | nil => exact absurd rfl hne
  | append_singleton more name ih =>
    rw [← List.append_assoc] at hnode
    have hhoused := h.housed _ (mem_of_node? hnode) (List.concat_ne_nil name _)
    rw [List.dropLast_concat] at hhoused
    by_cases hmore : more = []
    · rwa [hmore, List.append_nil] at hhoused
    · exact ih hmore hhoused

/-- Nothing is below what is no directory. -/
theorem below_eq_nil (hat : t.node? at_ = some node) (hdir : node ≠ .dir) : t.below at_ = [] := by
  refine List.eq_nil_iff_forall_not_mem.2 fun ⟨names, other⟩ hmem => hdir ?_
  obtain ⟨hmem, hne⟩ := mem_below_iff.1 hmem
  exact Option.some.inj (hat.symm.trans (h.dir_of_append hne (h.node?_of_mem hmem)))

/-- **A location below a directory is an entry of it, or lies below one.** -/
theorem mem_below_cons : (name :: names, node) ∈ t.below at_ ↔
    (names = [] ∧ (name, node) ∈ t.entries at_) ∨
      ((name, .dir) ∈ t.entries at_ ∧ (names, node) ∈ t.below (at_ ++ [name])) := by
  rw [mem_below_iff, mem_entries_iff, mem_entries_iff, mem_below_iff, List.append_assoc,
    List.singleton_append]
  constructor
  · rintro ⟨hmem, -⟩
    by_cases hnil : names = []
    · exact .inl ⟨hnil, hnil ▸ hmem⟩
    · have hnode := h.node?_of_mem hmem
      rw [List.append_cons] at hnode
      exact .inr ⟨mem_of_node? (h.dir_of_append hnil hnode), hmem, hnil⟩
  · rintro (⟨rfl, hmem⟩ | ⟨-, hmem, -⟩)
    · exact ⟨hmem, List.cons_ne_nil _ _⟩
    · exact ⟨hmem, List.cons_ne_nil _ _⟩

end WellFormed

end FileTree

end BraceBalance
