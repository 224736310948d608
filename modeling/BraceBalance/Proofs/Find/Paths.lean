import BraceBalance.Find
import BraceBalance.Proofs.FileTree.Entries
import Mathlib.Data.List.Sort

/-!
# Proofs/Find/Paths — what is found has paths of its own

    nodes that a walk meets, level by level ──pick──▸ files ──sort──▸ in the order of whole paths

Different nodes of a walk are led to by different names, and these make different paths however the
root is spelled (`walk_apart`), whichever directories they are read from.  So the files that are
found stand in the strict order of their paths (`files_pairwise_lt`).
-/

namespace BraceBalance

namespace Find

variable {t : FileTree} {path root : Bytes} {depth : Nat} {met : Met}

/-! ## What a walk meets

A walk is taken level by level: what is met below a directory is told by its entries and by what is
met below those. -/

/-- A directory that can be read is where its path leads, and what is read are its entries. -/
theorem readDir_eq_ok_iff {entries : List (Bytes × Node)} : t.readDir path = .ok entries ↔
    ∃ at_, t.locate true path = .ok (at_, .dir) ∧ t.entries at_ = entries := by
  rw [FileTree.readDir]
  rcases t.locate true path with cause | ⟨at_, _ | content | target⟩ <;> simp

/-- **One level of a walk.**  Below a directory a walk meets its entries, and what it meets below
those that are directories. -/
theorem mem_walkBelow_succ : .ok met ∈ walkBelow t (depth + 1) path ↔
    ∃ at_ name node, t.locate true path = .ok (at_, .dir) ∧ (name, node) ∈ t.entries at_ ∧
      (met = ⟨Path.join path name, path ++ [Path.separator] ++ name, node⟩ ∨
        node = .dir ∧ .ok met ∈ walkBelow t depth (Path.join path name)) := by
  have hdir : ∀ node : Node, node.isDir = true ↔ node = .dir := fun node => by
    cases node <;> simp [Node.isDir]
  rw [walkBelow]
  rcases hread : t.readDir path with error | entries
  · have hnone : ∀ at_, t.locate true path ≠ .ok (at_, .dir) := fun at_ hat => by
      rw [readDir_eq_ok_iff.2 ⟨at_, hat, rfl⟩] at hread
      cases hread
    simp [hnone]
  · obtain ⟨at_, hat, rfl⟩ := readDir_eq_ok_iff.1 hread
    simp [hat, hdir]

/-- What is met below a directory has a path of names joined to that of the directory. -/
theorem exists_names (ht : t.WellFormed) (h : .ok met ∈ walkBelow t depth path) :
    ∃ name rest, (∀ n ∈ name :: rest, Path.IsName n) ∧
      met.path = (name :: rest).foldl Path.join path := by
  induction depth generalizing path with
  | zero => simp [walkBelow] at h
  | succ depth ih =>
    obtain ⟨at_, name, node, -, hentry, rfl | ⟨-, hmet⟩⟩ := mem_walkBelow_succ.1 h
    · refine ⟨name, [], fun n hn => ?_, rfl⟩
      exact List.mem_singleton.1 hn ▸ ht.isName_of_mem_entries hentry
    · obtain ⟨next, rest, hnames, hpath⟩ := ih hmet
      refine ⟨name, next :: rest, List.forall_mem_cons.2 ⟨?_, hnames⟩, hpath⟩
      exact ht.isName_of_mem_entries hentry

/-- Two nodes that are met have different paths. -/
def Apart (e f : Except PathError Met) : Prop :=
  ∀ x y, e = .ok x → f = .ok y → x.path ≠ y.path

/-- An entry of a directory and what is met below it, if that is a directory, have paths that begin
with the name of the entry. -/
theorem exists_rest (ht : t.WellFormed) {at_ : Location} {name spelled : Bytes} {node : Node}
    (hentry : (name, node) ∈ t.entries at_)
    (h : .ok met ∈ .ok ⟨Path.join path name, spelled, node⟩ ::
      if node.isDir then walkBelow t depth (Path.join path name) else []) :
    ∃ rest, (∀ n ∈ name :: rest, Path.IsName n) ∧
      met.path = (name :: rest).foldl Path.join path := by
  have hname := ht.isName_of_mem_entries hentry
  rcases List.mem_cons.1 h with heq | hbelow
  · cases heq
    exact ⟨[], fun n hn => List.mem_singleton.1 hn ▸ hname, rfl⟩
  · split_ifs at hbelow with hdir
    · obtain ⟨next, rest, hnames, hpath⟩ := exists_names ht hbelow
      exact ⟨next :: rest, List.forall_mem_cons.2 ⟨hname, hnames⟩, hpath⟩
    · exact absurd hbelow List.not_mem_nil

/-- A node has another path than what is met below it. -/
theorem pairwise_apart_cons (ht : t.WellFormed) (head : Met) (node : Node)
    (hbelow : (walkBelow t depth head.path).Pairwise Apart) :
    (.ok head :: if node.isDir then walkBelow t depth head.path else []).Pairwise Apart := by
  split_ifs
  · refine List.pairwise_cons.2 ⟨fun event hevent x y hx hy heq => ?_, hbelow⟩
    cases hx
    subst hy
    obtain ⟨name, rest, hnames, hpath⟩ := exists_names ht hevent
    rw [hpath] at heq
    have hnil : [] = name :: rest :=
      Path.eq_of_foldl_join_eq (List.forall_mem_nil _) hnames heq
    cases hnil
  · exact List.pairwise_singleton _ _

/-- What is met below a directory has paths that differ from each other. -/
theorem walkBelow_apart (ht : t.WellFormed) (depth : Nat) (path : Bytes) :
    (walkBelow t depth path).Pairwise Apart := by
  induction depth generalizing path with
  | zero => exact List.pairwise_singleton _ _
  | succ depth ih =>
    rw [walkBelow]
    rcases hread : t.readDir path with error | entries
    · exact List.pairwise_singleton _ _
    obtain ⟨at_, -, rfl⟩ := readDir_eq_ok_iff.1 hread
    refine List.pairwise_flatMap.2 ⟨fun ⟨name, node⟩ _ => pairwise_apart_cons ht _ node (ih _), ?_⟩
    have hnames := List.pairwise_map.1 (ht.entries_names_nodup at_)
    refine hnames.imp_of_mem fun {a b} ha hb hne event hevent other hother x y hx hy heq => ?_
    subst hx hy
    obtain ⟨rest, hrest, hx⟩ := exists_rest ht ha hevent
    obtain ⟨more, hmore, hy⟩ := exists_rest ht hb hother
    rw [hx, hy] at heq
    exact hne (List.cons.inj (Path.eq_of_foldl_join_eq hrest hmore heq)).1

/-- **Every node of a walk has a path of its own.** -/
theorem walk_apart (ht : t.WellFormed) (root : Bytes) : (walk t root).Pairwise Apart := by
  rw [walk]
  rcases t.lstat root with error | ⟨at_, node⟩
  · exact List.pairwise_singleton _ _
  · exact pairwise_apart_cons ht ⟨root, root, node⟩ node (walkBelow_apart ht _ root)

/-! ## What is picked -/

section

variable {α : Type} {pick : Met → Except PathError (Option α)}

theorem visit_cons_ok (met : Met) (events : List (Except PathError Met)) :
    visit pick (.ok met :: events) = (do
      let picked ← pick met
      return picked.toList ++ (← visit pick events)) := rfl

/-- A visit of nodes that are all picked without an error gives what was picked. -/
theorem visit_map {mets : List Met} {picked : Met → Option α}
    (h : ∀ met ∈ mets, pick met = .ok (picked met)) :
    visit pick (mets.map .ok) = .ok (mets.filterMap picked) := by
  induction mets with
  | nil => rfl
  | cons met mets ih =>
    obtain ⟨hmet, hrest⟩ := List.forall_mem_cons.1 h
    rw [List.map_cons, visit_cons_ok, List.filterMap_cons, ih hrest, hmet]
    cases picked met <;> rfl

/-- Where no error ends a visit, there was none. -/
theorem exists_of_visit {events : List (Except PathError Met)} {found : List α}
    (h : visit pick events = .ok found) :
    ∃ mets : List Met, events = mets.map .ok ∧
      ∀ met ∈ mets, pick met = .ok (pick met).toOption.join := by
  induction events generalizing found with
  | nil => exact ⟨[], rfl, List.forall_mem_nil _⟩
  | cons event events ih =>
    rcases event with error | met
    · cases h
    rw [visit_cons_ok] at h
    rcases hpicked : pick met with error | picked
    · rw [hpicked] at h
      cases h
    rcases hrest : visit pick events with error | more
    · rw [hpicked, hrest] at h
      cases h
    obtain ⟨mets, rfl, hmets⟩ := ih hrest
    exact ⟨met :: mets, rfl, List.forall_mem_cons.2 ⟨by rw [hpicked]; rfl, hmets⟩⟩

end

/-! ## Files

Paths that differ are put in order, so no two of them are equal in it. -/

theorem path_of_pickFile {extensions : List Bytes} {file : Found}
    (h : (pickFile t extensions met).toOption.join = some file) : file.path = met.path := by
  rw [pickFile] at h
  split_ifs at h
  · cases h
  · rcases hlook : t.lstat met.spelled with error | found
    · rw [hlook] at h
      cases h
    · rw [hlook] at h
      cases h
      rfl

theorem le_iff {a b : Bytes} : Bytes.le a b = true ↔ a ≤ b := by
  rw [Bytes.le, Bool.not_eq_true', decide_eq_false_iff_not]
  exact Iff.rfl

/-- Files with paths of their own are sorted into the strict order of their paths. -/
theorem mergeSort_pairwise_lt {found : List Found} (h : (found.map Found.path).Nodup) :
    ((found.mergeSort fun a b => Bytes.le a.path b.path).map Found.path).Pairwise (· < ·) := by
  have hdistinct : ((found.mergeSort fun a b => Bytes.le a.path b.path).map Found.path).Nodup :=
    ((found.mergeSort_perm _).map Found.path).nodup_iff.2 h
  have hsorted : (found.mergeSort fun a b => Bytes.le a.path b.path).Pairwise
      fun a b => Bytes.le a.path b.path = true := by
    refine List.pairwise_mergeSort (fun a b c hab hbc => ?_) (fun a b => ?_) found
    · exact le_iff.2 (List.le_trans (le_iff.1 hab) (le_iff.1 hbc))
    · rw [Bool.or_eq_true, le_iff, le_iff]
      exact List.le_total a.path b.path
  rw [List.pairwise_map]
  refine (hsorted.and (List.pairwise_map.1 hdistinct)).imp fun {a b} hab => ?_
  exact Std.lt_of_le_of_ne (le_iff.1 hab.1) hab.2

/-- What is found was picked from a walk without an error. -/
theorem exists_mets_of_files {extensions : List Bytes} {found : List Found}
    (h : files t extensions root = .ok found) :
    ∃ mets : List Met, walk t root = mets.map .ok ∧
      (∀ met ∈ mets, pickFile t extensions met = .ok (pickFile t extensions met).toOption.join) ∧
      found = (mets.filterMap fun met => (pickFile t extensions met).toOption.join).mergeSort
        fun a b => Bytes.le a.path b.path := by
  rw [files] at h
  rcases hvisit : visit (pickFile t extensions) (walk t root) with error | picked
  · rw [hvisit] at h
    cases h
  rw [hvisit] at h
  obtain rfl := Except.ok.inj h
  obtain ⟨mets, hwalk, hpicks⟩ := exists_of_visit hvisit
  rw [hwalk, visit_map hpicks] at hvisit
  obtain rfl := Except.ok.inj hvisit
  exact ⟨mets, hwalk, hpicks, rfl⟩

/-- **What is found stands in the strict order of its paths.** -/
theorem files_pairwise_lt (ht : t.WellFormed) {extensions : List Bytes} {found : List Found}
    (hfound : files t extensions root = .ok found) :
    (found.map Found.path).Pairwise (· < ·) := by
  obtain ⟨mets, hwalk, -, rfl⟩ := exists_mets_of_files hfound
  have hpaths : (mets.map Met.path).Nodup := by
    have hapart := walk_apart ht root
    rw [hwalk, List.pairwise_map] at hapart
    exact List.pairwise_map.2 (hapart.imp fun hne => hne _ _ rfl rfl)
  refine mergeSort_pairwise_lt (hpaths.sublist ?_)
  exact map_filterMap_sublist (fun met file hfile => path_of_pickFile hfile) mets

end Find

end BraceBalance
