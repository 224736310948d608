import BraceBalance.Proofs.Find.Descent
import BraceBalance.Proofs.Find.Paths
import Mathlib.Data.Set.List

/-!
# Proofs/Find/Walk — a walk meets what stands at and below its root

    directory ──read──▸ entries ──join──▸ paths ──read again──▸ directory

A walk goes by paths: it reads a directory, joins the names found there to the path, and reads on
under the joined path.  If the root, spelled as short as can be, leads where it leads as it is, the
joined path of a directory leads to that directory (`FileTree.Leads.enter`); so the nodes met are
those of the tree, each once and under its own path (`walk_perm`), and the files found are the
wanted ones among them (`found_exactly`).  Where no path is too long, nothing refuses to be read
(`readable_of_legible`).
-/

namespace BraceBalance

namespace Find

variable {t : FileTree} {path root : Bytes} {depth : Nat} {met : Met} {at_ : Location} {node : Node}
  {extensions : List Bytes}

/-- Nothing refused to be read: there is a node, and it can be looked up. -/
def Succeeds (t : FileTree) (event : Except PathError Met) : Prop :=
  ∃ met, event = .ok met ∧ ∃ found, t.lstat met.spelled = .ok found

/-- Every directory at and below a path can be read, and every node there be looked up. -/
def Readable (t : FileTree) (root : Bytes) : Prop := ∀ event ∈ walk t root, Succeeds t event

/-! ## Reading on -/

/-- A walk below a directory meets what it meets below the directories in it. -/
theorem walkBelow_subset (hat : t.locate true path = .ok (at_, .dir)) {name : Bytes}
    (hentry : (name, .dir) ∈ t.entries at_) (depth : Nat) :
    walkBelow t depth (Path.join path name) ⊆ walkBelow t (depth + 1) path := by
  intro event hevent
  rw [walkBelow, readDir_eq_ok_iff.2 ⟨at_, hat, rfl⟩]
  exact List.mem_flatMap.2 ⟨_, hentry, List.mem_cons_of_mem _ hevent⟩

/-- A directory below which a walk meets no error can be found. -/
theorem exists_locate_of_read (h : ∀ event ∈ walkBelow t depth path, ∃ met, event = .ok met) :
    ∃ found, t.locate true path = .ok found := by
  rcases depth with _ | depth
  · obtain ⟨met, hmet⟩ := h _ List.mem_cons_self
    cases hmet
  · rw [walkBelow] at h
    rcases hread : t.readDir path with error | entries
    · rw [hread] at h
      obtain ⟨met, hmet⟩ := h _ List.mem_cons_self
      cases hmet
    · obtain ⟨l, hl, -⟩ := readDir_eq_ok_iff.1 hread
      exact ⟨_, hl⟩

/-- What a node that was met is looked up by leads to it. -/
theorem node_of_lstat (ht : t.WellFormed) (h : .ok met ∈ walkBelow t depth path)
    {found : Location × Node} (hfound : t.lstat met.spelled = .ok found) : found.2 = met.node := by
  induction depth generalizing path with
  | zero => simp [walkBelow] at h
  | succ depth ih =>
    obtain ⟨at_, name, node, hat, hentry, rfl | ⟨-, hmet⟩⟩ := mem_walkBelow_succ.1 h
    · rw [(ht.lstat_entry hat hentry).1 found hfound]
    · exact ih hmet

/-! ## What is met

Nodes and names are matched one to one: each path a walk meets is the root joined by the names of
one node. -/

/-- **What a walk meets below a directory**, if every directory there could be read. -/
theorem mem_walkBelow_iff (ht : t.WellFormed) (hpath : t.Leads path at_)
    (hread : ∀ event ∈ walkBelow t depth path, ∃ met, event = .ok met) {p : Bytes} :
    (∃ spelled, .ok ⟨p, spelled, node⟩ ∈ walkBelow t depth path) ↔
      ∃ names, (names, node) ∈ t.below at_ ∧ p = names.foldl Path.join path := by
  induction depth generalizing path at_ with
  | zero =>
    obtain ⟨met, hmet⟩ := hread _ List.mem_cons_self
    cases hmet
  | succ depth ih =>
    -- The directories among the entries are walked under their joined paths.
    have hbelow : ∀ name, (name, .dir) ∈ t.entries at_ →
        ((∃ spelled, .ok ⟨p, spelled, node⟩ ∈ walkBelow t depth (Path.join path name)) ↔
          ∃ names, (names, node) ∈ t.below (at_ ++ [name]) ∧
            p = names.foldl Path.join (Path.join path name)) := by
      intro name hentry
      have hrest := fun event hevent =>
        hread event (walkBelow_subset hpath.whole hentry depth hevent)
      exact ih (hpath.enter ht hentry (.inl (exists_locate_of_read hrest))) hrest
    constructor
    · rintro ⟨spelled, hmet⟩
      obtain ⟨l, name, other, hl, hentry, hcases⟩ := mem_walkBelow_succ.1 hmet
      obtain rfl : at_ = l := (Prod.mk.inj (Except.ok.inj (hpath.whole.symm.trans hl))).1
      rcases hcases with heq | ⟨rfl, hmet⟩
      · obtain ⟨rfl, -, rfl⟩ := Met.mk.inj heq
        exact ⟨[name], ht.mem_below_cons.2 (.inl ⟨rfl, hentry⟩), rfl⟩
      · obtain ⟨names, hmem, rfl⟩ := (hbelow name hentry).1 ⟨spelled, hmet⟩
        exact ⟨name :: names, ht.mem_below_cons.2 (.inr ⟨hentry, hmem⟩), rfl⟩
    · rintro ⟨_ | ⟨name, names⟩, hmem, rfl⟩
      · exact absurd rfl (FileTree.mem_below_iff.1 hmem).2
      · rcases ht.mem_below_cons.1 hmem with ⟨rfl, hentry⟩ | ⟨hentry, hmem⟩
        · exact ⟨_, mem_walkBelow_succ.2 ⟨at_, name, node, hpath.whole, hentry, .inl rfl⟩⟩
        · obtain ⟨spelled, hmet⟩ := (hbelow name hentry).2 ⟨names, hmem, rfl⟩
          exact ⟨spelled,
            mem_walkBelow_succ.2 ⟨at_, name, .dir, hpath.whole, hentry, .inr ⟨rfl, hmet⟩⟩⟩

/-- The nodes at and below a node, by the names that lead to them from there. -/
def within (t : FileTree) (at_ : Location) (node : Node) : List (List Bytes × Node) :=
  ([], node) :: t.below at_

/-- Names lead from a node to what stands at and below it. -/
theorem isName_of_mem_within (ht : t.WellFormed) {names : List Bytes} {other : Node}
    (h : (names, other) ∈ within t at_ node) : ∀ name ∈ names, Path.IsName name := by
  rcases List.mem_cons.1 h with heq | hbelow
  · cases heq
    exact List.forall_mem_nil _
  · exact ht.isName_of_mem_below hbelow

/-- No names lead from a node to two others. -/
theorem within_names_nodup (ht : t.WellFormed) (at_ : Location) (node : Node) :
    ((within t at_ node).map Prod.fst).Nodup := by
  rw [within, List.map_cons, List.nodup_cons]
  refine ⟨fun hmem => ?_, ht.below_names_nodup at_⟩
  obtain ⟨⟨names, other⟩, hbelow, hnil⟩ := List.mem_map.1 hmem
  exact (FileTree.mem_below_iff.1 hbelow).2 hnil

/-- **What a walk meets**, if every directory could be read. -/
theorem mem_walk_iff (ht : t.WellFormed) (hroot : t.lstat root = .ok (at_, node))
    (hclean : node = .dir → t.locate true (Path.clean root) = .ok (at_, .dir))
    (hread : ∀ event ∈ walk t root, ∃ met, event = .ok met) {p : Bytes} {other : Node} :
    (∃ spelled, .ok ⟨p, spelled, other⟩ ∈ walk t root) ↔
      ∃ names, (names, other) ∈ within t at_ node ∧ p = names.foldl Path.join root := by
  have hwalk : walk t root = .ok ⟨root, root, node⟩ ::
      if node.isDir then walkBelow t (FileTree.maxPath + 1) root else [] := by
    rw [walk, hroot]
  have hbelow : (∃ spelled, .ok ⟨p, spelled, other⟩ ∈
        if node.isDir then walkBelow t (FileTree.maxPath + 1) root else []) ↔
      ∃ names, (names, other) ∈ t.below at_ ∧ p = names.foldl Path.join root := by
    split_ifs with hdir
    · obtain rfl : node = .dir := by cases node <;> simp_all [Node.isDir]
      have hleads : t.Leads root at_ := .of_lstat hroot (hclean rfl)
      refine mem_walkBelow_iff ht hleads fun event hevent => hread event ?_
      rw [hwalk]
      exact List.mem_cons_of_mem _ hevent
    · have hat := (FileTree.locate_eq_ok (FileTree.lstat_eq_ok_iff.1 hroot)).2
      rw [ht.below_eq_nil hat fun heq => hdir (heq ▸ rfl)]
      simp
  rw [hwalk]
  simp only [List.mem_cons, exists_or, hbelow, within, or_and_right]
  refine or_congr ?_ Iff.rfl
  constructor
  · rintro ⟨spelled, heq⟩
    cases heq
    exact ⟨[], rfl, rfl⟩
  · rintro ⟨names, heq, rfl⟩
    cases heq
    exact ⟨root, rfl⟩

/-- **A walk meets what stands at and below its root**, each node once. -/
theorem walk_perm (ht : t.WellFormed) (hroot : t.lstat root = .ok (at_, node))
    (hclean : node = .dir → t.locate true (Path.clean root) = .ok (at_, .dir))
    {mets : List Met} (hwalk : walk t root = mets.map .ok) :
    (mets.map fun met => (met.path, met.node)).Perm
      ((within t at_ node).map fun (names, other) => (names.foldl Path.join root, other)) := by
  have hread : ∀ event ∈ walk t root, ∃ met, event = .ok met := by
    rw [hwalk]
    intro event hevent
    obtain ⟨met, -, rfl⟩ := List.mem_map.1 hevent
    exact ⟨met, rfl⟩
  refine (List.perm_ext_iff_of_nodup ?_ ?_).2 fun ⟨p, other⟩ => ?_
  · have hapart := walk_apart ht root
    rw [hwalk, List.pairwise_map] at hapart
    refine List.pairwise_map.2 (hapart.imp fun hne heq => ?_)
    exact hne _ _ rfl rfl (Prod.mk.inj heq).1
  · refine List.Nodup.map_on (fun x hx y hy heq => ?_)
      (List.Nodup.of_map _ (within_names_nodup ht at_ node))
    have hnames := Path.eq_of_foldl_join_eq (isName_of_mem_within ht hx)
      (isName_of_mem_within ht hy) (Prod.mk.inj heq).1
    exact List.inj_on_of_nodup_map (within_names_nodup ht at_ node) hx hy hnames
  · have hmet : (∃ spelled, .ok ⟨p, spelled, other⟩ ∈ walk t root) ↔
        (p, other) ∈ mets.map fun met => (met.path, met.node) := by
      rw [hwalk]
      constructor
      · rintro ⟨spelled, hmem⟩
        obtain ⟨met, hmet, heq⟩ := List.mem_map.1 hmem
        cases heq
        exact List.mem_map.2 ⟨_, hmet, rfl⟩
      · intro hmem
        obtain ⟨met, hmet, heq⟩ := List.mem_map.1 hmem
        cases heq
        exact ⟨met.spelled, List.mem_map.2 ⟨met, hmet, rfl⟩⟩
    rw [← hmet, mem_walk_iff ht hroot hclean hread, List.mem_map]
    constructor
    · rintro ⟨names, hmem, rfl⟩
      exact ⟨(names, other), hmem, rfl⟩
    · rintro ⟨⟨names, node'⟩, hmem, heq⟩
      cases heq
      exact ⟨names, hmem, rfl⟩

/-! ## What is found -/

/-- Whether a node is to be found: it is no directory, and its path has one of the extensions, if
any are given. -/
def Due (extensions : List Bytes) (path : Bytes) (node : Node) : Prop :=
  node ≠ .dir ∧ (extensions = [] ∨ Path.extension path ∈ extensions)

instance (extensions : List Bytes) (path : Bytes) (node : Node) :
    Decidable (Due extensions path node) :=
  inferInstanceAs (Decidable (_ ∧ _))

/-- What a search passes over is what is not due. -/
theorem due_iff : (met.node.isDir || !wanted extensions met.path) = false ↔
    Due extensions met.path met.node := by
  cases hnode : met.node <;> simp [Due, wanted, Node.isDir, or_iff_not_imp_left]

/-- What a node of a walk is looked up by leads to it. -/
theorem node_of_lstat_walk (ht : t.WellFormed) (h : .ok met ∈ walk t root)
    {found : Location × Node} (hfound : t.lstat met.spelled = .ok found) :
    found.2 = met.node := by
  rw [walk] at h
  rcases hroot : t.lstat root with error | ⟨at_, node⟩
  · rw [hroot] at h
    simp at h
  · rw [hroot] at h
    rcases List.mem_cons.1 h with heq | hbelow
    · cases heq
      rw [Except.ok.inj (hfound.symm.trans hroot)]
    · split_ifs at hbelow
      · exact node_of_lstat ht hbelow hfound
      · exact absurd hbelow List.not_mem_nil

/-- What is picked, is a file that is due, with the size of the node that was met. -/
theorem picked_eq (ht : t.WellFormed) (h : .ok met ∈ walk t root) {picked : Option Found}
    (hpick : pickFile t extensions met = .ok picked) :
    picked = if Due extensions met.path met.node then some ⟨met.path, met.node.size⟩ else none := by
  rw [pickFile] at hpick
  by_cases hdue : Due extensions met.path met.node
  · rw [if_neg (Bool.eq_false_iff.1 (due_iff.2 hdue))] at hpick
    rcases hfound : t.lstat met.spelled with error | found
    · rw [hfound] at hpick
      cases hpick
    · rw [hfound] at hpick
      rw [if_pos hdue, ← node_of_lstat_walk ht h hfound]
      exact (Except.ok.inj hpick).symm
  · rw [if_pos (Bool.eq_true_of_not_eq_false fun hfalse => hdue (due_iff.1 hfalse))] at hpick
    rw [if_neg hdue]
    exact (Except.ok.inj hpick).symm

/-- **What is found, is what is due** at and below the root. -/
theorem files_perm (ht : t.WellFormed) (hroot : t.lstat root = .ok (at_, node))
    (hclean : node = .dir → t.locate true (Path.clean root) = .ok (at_, .dir))
    {found : List Found} (hfound : files t extensions root = .ok found) :
    found.Perm (((within t at_ node).filter fun entry =>
      Due extensions (entry.1.foldl Path.join root) entry.2).map fun entry =>
        ⟨entry.1.foldl Path.join root, entry.2.size⟩) := by
  obtain ⟨mets, hwalk, hpicks, rfl⟩ := exists_mets_of_files hfound
  have hpicked : (mets.filterMap fun met => (pickFile t extensions met).toOption.join) =
      (mets.filter fun met => Due extensions met.path met.node).map fun met =>
        ⟨met.path, met.node.size⟩ := by
    rw [← List.filterMap_eq_map, List.filterMap_filter]
    refine List.filterMap_congr fun met hmet => ?_
    have hmem : .ok met ∈ walk t root := hwalk ▸ List.mem_map_of_mem hmet
    rw [picked_eq ht hmem (hpicks met hmet)]
    simp
  have hperm := ((walk_perm ht hroot hclean hwalk).filter fun entry =>
    Due extensions entry.1 entry.2).map fun entry => Found.mk entry.1 entry.2.size
  rw [List.filter_map, List.map_map, List.filter_map, List.map_map] at hperm
  rw [hpicked]
  exact (List.mergeSort_perm _ _).trans hperm

/-! ## What can be read

A walk is refused a directory only for the length of its path, and a path grows by a byte at least
with every level. -/

/-- No path is too long that a walk goes by or looks up. -/
def Legible (t : FileTree) (root : Bytes) (at_ : Location) : Prop :=
  ∀ entry ∈ t.below at_, FileTree.Spellable (entry.1.foldl Path.join root) ∧
    FileTree.Spellable
      (entry.1.dropLast.foldl Path.join root ++ [Path.separator] ++ entry.1.getLastD [])

instance (t : FileTree) (root : Bytes) (at_ : Location) : Decidable (Legible t root at_) :=
  inferInstanceAs (Decidable (∀ entry ∈ t.below at_, _ ∧ _))

theorem Legible.entry (h : Legible t path at_) (ht : t.WellFormed) {name : Bytes}
    (hentry : (name, node) ∈ t.entries at_) :
    FileTree.Spellable (Path.join path name) ∧
      FileTree.Spellable (path ++ [Path.separator] ++ name) :=
  h ([name], node) (ht.mem_below_cons.2 (.inl ⟨rfl, hentry⟩))

theorem Legible.enter (h : Legible t path at_) (ht : t.WellFormed) {name : Bytes}
    (hentry : (name, .dir) ∈ t.entries at_) :
    Legible t (Path.join path name) (at_ ++ [name]) := by
  rintro ⟨_ | ⟨next, names⟩, node⟩ hmem
  · exact absurd rfl (FileTree.mem_below_iff.1 hmem).2
  · exact h (name :: next :: names, node) (ht.mem_below_cons.2 (.inr ⟨hentry, hmem⟩))

/-- A directory is walked without an error if its entries can be looked up and the directories among
them are. -/
theorem succeeds_of_entries (ht : t.WellFormed) (hpath : t.Leads path at_)
    (h : Legible t path at_)
    (hbelow : ∀ name, (name, .dir) ∈ t.entries at_ →
      ∀ event ∈ walkBelow t depth (Path.join path name), Succeeds t event) :
    ∀ event ∈ walkBelow t (depth + 1) path, Succeeds t event := by
  intro event hevent
  rw [walkBelow, readDir_eq_ok_iff.2 ⟨at_, hpath.whole, rfl⟩] at hevent
  obtain ⟨⟨name, node⟩, hentry, hevent⟩ := List.mem_flatMap.1 hevent
  rcases List.mem_cons.1 hevent with rfl | hevent
  · exact ⟨_, rfl, (ht.lstat_entry hpath.whole hentry).2 (h.entry ht hentry).2⟩
  · rcases node with _ | content | target
    · exact hbelow name hentry event hevent
    · exact absurd hevent List.not_mem_nil
    · exact absurd hevent List.not_mem_nil

/-- **A walk never goes too deep**: a path is too long before it has as many names. -/
theorem walkBelow_succeeds (ht : t.WellFormed) (hpath : t.Leads path at_)
    (h : Legible t path at_) (hdepth : FileTree.maxPath ≤ (Path.kept path).length + depth) :
    ∀ event ∈ walkBelow t (depth + 1) path, Succeeds t event := by
  induction depth generalizing path at_ with
  | zero =>
    refine succeeds_of_entries ht hpath h fun name hentry => ?_
    have hnames : ∀ n ∈ [name], Path.IsName n := fun n hn =>
      List.mem_singleton.1 hn ▸ ht.isName_of_mem_entries hentry
    have hlength := Path.length_names_le (Path.join path name)
    have hspelled := (FileTree.names_steps_foldl_join hnames (by simp) path).1
    rw [List.foldl_cons, List.foldl_nil] at hspelled
    rw [hspelled, List.length_append, List.length_singleton] at hlength
    have hshort := (h.entry ht hentry).1.short
    omega
  | succ depth ih =>
    refine succeeds_of_entries ht hpath h fun name hentry => ?_
    have hkept := (Path.rooted_kept_join (ht.isName_of_mem_entries hentry) path).2
    refine ih (hpath.enter ht hentry (.inr (h.entry ht hentry).1)) (h.enter ht hentry) ?_
    rw [hkept, List.length_append, List.length_singleton]
    omega

/-- **Where everything can be read, a visit ends without an error**, if it only looks nodes up. -/
theorem Readable.exists_visit (h : Readable t root) {α : Type}
    {pick : Met → Except PathError (Option α)}
    (hpick : ∀ met found, t.lstat met.spelled = .ok found → ∃ picked, pick met = .ok picked) :
    ∃ found, visit pick (walk t root) = .ok found := by
  have hmets : walk t root ∈ Set.range (List.map (Except.ok : Met → Except PathError Met)) := by
    rw [Set.range_list_map]
    intro event hevent
    obtain ⟨met, rfl, -⟩ := h event hevent
    exact ⟨met, rfl⟩
  obtain ⟨mets, hmets⟩ := hmets
  have hpicked : ∀ met ∈ mets, pick met = .ok (pick met).toOption.join := by
    intro met hmet
    obtain ⟨_, heq, found, hfound⟩ := h (.ok met) (hmets ▸ List.mem_map_of_mem hmet)
    cases heq
    obtain ⟨picked, hpicked⟩ := hpick met found hfound
    rw [hpicked]
    rfl
  rw [← hmets, visit_map hpicked]
  exact ⟨_, rfl⟩

/-- Where everything can be read, a search for files ends without an error. -/
theorem Readable.exists_files (h : Readable t root) (extensions : List Bytes) :
    ∃ found, files t extensions root = .ok found := by
  have hpick : ∀ met found, t.lstat met.spelled = .ok found →
      ∃ picked, pickFile t extensions met = .ok picked := by
    intro met found hlook
    rw [pickFile, hlook]
    split_ifs
    · exact ⟨_, rfl⟩
    · exact ⟨_, rfl⟩
  obtain ⟨found, hfound⟩ := h.exists_visit hpick
  rw [files, hfound]
  exact ⟨_, rfl⟩

theorem Readable.exists_directories (h : Readable t root) :
    ∃ dirs, directories t root = .ok dirs :=
  h.exists_visit fun _ _ _ => ⟨_, rfl⟩

/-- **Where no path is too long, everything can be read.** -/
theorem readable_of_legible (ht : t.WellFormed) (hroot : t.lstat root = .ok (at_, node))
    (hclean : node = .dir → t.locate true (Path.clean root) = .ok (at_, .dir))
    (h : Legible t root at_) : Readable t root := by
  intro event hevent
  rw [walk, hroot] at hevent
  rcases List.mem_cons.1 hevent with rfl | hbelow
  · exact ⟨_, rfl, _, hroot⟩
  · rcases node with _ | content | target
    · have hleads : t.Leads root at_ := .of_lstat hroot (hclean rfl)
      exact walkBelow_succeeds ht hleads h (Nat.le_add_left _ _) event hbelow
    · exact absurd hbelow List.not_mem_nil
    · exact absurd hbelow List.not_mem_nil

/-! ## What is found and nothing else -/

/-- **What is found is what is there**, if the root still leads there once it is spelled as short as
can be.  Where everything at and below a path can be read, a list is found, in the strict order of
whole paths.  It has one entry for each node at or below the path that is no directory and whose
path has one of the extensions, or any if none are given, with the size of the node; a link counts
as itself.  There are no other entries. -/
theorem found_exactly (ht : t.WellFormed) (hroot : t.lstat root = .ok (at_, node))
    (hclean : node = .dir → t.locate true (Path.clean root) = .ok (at_, .dir))
    (hread : Readable t root) (extensions : List Bytes) :
    ∃ found, files t extensions root = .ok found ∧
      (found.map Found.path).Pairwise (· < ·) ∧
      found.Perm (((within t at_ node).filter fun entry =>
        Due extensions (entry.1.foldl Path.join root) entry.2).map fun entry =>
          ⟨entry.1.foldl Path.join root, entry.2.size⟩) := by
  obtain ⟨found, hfound⟩ := hread.exists_files extensions
  exact ⟨found, hfound, files_pairwise_lt ht hfound, files_perm ht hroot hclean hfound⟩

/-- A directory, a file whose name begins as that of the directory does, and a link to nowhere. -/
def branchTree : FileTree where
  nodes := [([], .dir), (["work"], .dir), (["work", "d"], .dir), (["work", "d", "a"], .dir),
    (["work", "d", "a", "x.js"], .file "\x7b"), (["work", "d", "a.js"], .file "ok"),
    (["work", "d", "l.js"], .link "gone"), (["work", "d", "n.txt"], .file "ok")]
  workingDir := ["work"]

/-- A walk meets the directory `a` and what is below it before `a.js`, which is found first. -/
theorem found_exactly_branches :
    ∃ found, files branchTree [".js"] "./d/" = .ok found ∧
      found.map Found.path = (["d/a.js", "d/a/x.js", "d/l.js"] : List Bytes) ∧
      found.Perm [⟨"d/a/x.js", 1⟩, ⟨"d/a.js", 2⟩, ⟨"d/l.js", 4⟩] := by
  have ht : branchTree.WellFormed := ⟨by decide, by decide, by decide, by decide, by decide⟩
  have hroot : branchTree.lstat "./d/" = .ok (["work", "d"], .dir) := rfl
  have hread : Readable branchTree "./d/" :=
    readable_of_legible ht hroot (fun _ => rfl) (by decide +kernel)
  obtain ⟨found, hfound, hsorted, hperm⟩ := found_exactly ht hroot (fun _ => rfl) hread [".js"]
  refine ⟨found, hfound, ?_, hperm⟩
  have hpaths : (found.map Found.path).Perm (["d/a.js", "d/a/x.js", "d/l.js"] : List Bytes) :=
    (hperm.map Found.path).trans (.swap _ _ _)
  exact hpaths.eq_of_pairwise (fun a b _ _ hlt hgt => absurd hgt (List.lt_asymm hlt)) hsorted
    (by decide)

/-- Two directories of one spelling: `d`, and `l/../d`, which is the `d` beside the directory that
the link `l` leads to. -/
def astrayTree : FileTree where
  nodes := [([], .dir), (["work"], .dir), (["work", "l"], .link "x/y"), (["work", "x"], .dir),
    (["work", "x", "y"], .dir), (["work", "x", "d"], .dir), (["work", "x", "d", "s"], .dir),
    (["work", "x", "d", "s", "a.js"], .file "\x7b"), (["work", "d"], .dir),
    (["work", "d", "s"], .dir), (["work", "d", "s", "b.js"], .file "")]
  workingDir := ["work"]

/-- A root that leads elsewhere once it is cleaned: its directory is read, and then directories of
the other one.  The one file below it is missed, and a file is found that is not below it. -/
theorem found_astray :
    astrayTree.WellFormed ∧ astrayTree.lstat "l/../d" = .ok (["work", "x", "d"], .dir) ∧
      within astrayTree ["work", "x", "d"] .dir =
        ([([], .dir), (["s"], .dir), (["s", "a.js"], .file "\x7b")] : List (List Bytes × Node)) ∧
      files astrayTree [] "l/../d" = .ok [⟨"d/s/b.js", 0⟩] := by
  refine ⟨⟨by decide, by decide, by decide, by decide, by decide⟩, rfl, by decide, ?_⟩
  have hfound : (files astrayTree [] "l/../d").toOption = some [⟨"d/s/b.js", 0⟩] := by
    decide +kernel
  rcases hfiles : files astrayTree [] "l/../d" with error | found
  · rw [hfiles] at hfound
    cases hfound
  · rw [hfiles] at hfound
    exact congrArg Except.ok (Option.some.inj hfound)

end Find

end BraceBalance
