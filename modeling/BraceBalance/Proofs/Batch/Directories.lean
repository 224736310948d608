import BraceBalance.Proofs.Batch.Schedules
import BraceBalance.Proofs.Find.Descent

/-!
# Proofs/Batch/Directories — which files a directory stands for

Whether a path stands for a directory is asked through links, but the walk below it starts without
following one.  A path that names the directory itself stands for all its wanted files, each handed
over once under a path that leads to it; a link to the directory stands for none of them
(`directory_handed_over`).
-/

namespace BraceBalance

/-- A path names a directory itself, not a link to it, and still leads there when it is spelled as
short as can be. -/
structure FileTree.IsDirAt (t : FileTree) (path : Bytes) (at_ : Location) : Prop where
  own : t.lstat path = .ok (at_, .dir)
  spelled : t.locate true (Path.clean path) = .ok (at_, .dir)

namespace Batch

variable {t : FileTree} {path : Bytes} {at_ : Location} {extensions : List Bytes}

/-- The extensions a directory is searched for. -/
def searched (extensions : List Bytes) : List Bytes :=
  if extensions.isEmpty then standardExtensions else extensions

/-- To check a path is to hand these files over, one by one, whatever is done with each. -/
def HandsOver (t : FileTree) (extensions : List Bytes) (path : Bytes) (files : List Bytes) : Prop :=
  ∀ (process : Process) (c : Checker) (log : List LogEntry),
    let ended := directoryFiles process [] ⟨c, t, log⟩ files
    Batch.path process none extensions ⟨c, t, log⟩ path = (.ok ended.1, ended.2)

theorem handsOver_targets (hdir : t.stat path = .ok .dir) {found : List Find.Found}
    (hfound : Find.files t (searched extensions) path = .ok found) :
    HandsOver t extensions path (targets t extensions path) := by
  intro process c log
  rw [path_eq_directoryFiles hdir, search, ← searched, hfound]
  rfl

/-- Where files are handed over, the search for them ended without an error. -/
theorem HandsOver.exists_found {files : List Bytes} (h : HandsOver t extensions path files)
    (hdir : t.stat path = .ok .dir) :
    ∃ found, Find.files t (searched extensions) path = .ok found := by
  have hpath := h (fun c t _ => ⟨.ok none, [], c, t⟩) { options := .standard } []
  rw [path_eq_directoryFiles hdir, search, ← searched] at hpath
  rcases hfound : Find.files t (searched extensions) path with error | found
  · rw [hfound] at hpath
    cases (Prod.mk.inj hpath).1
  · exact ⟨found, rfl⟩

/-- Where every check fails, the log has one entry for each file, in order. -/
theorem log_directoryFiles_of_error (failure : Failure) (p : Progress) (files : List Bytes) :
    (directoryFiles (fun c t _ => ⟨.error failure, [], c, t⟩) [] p files).2.log =
      p.log ++ files.map (LogEntry.fileFailed · failure) := by
  induction files generalizing p with
  | nil => exact (List.append_nil _).symm
  | cons file files ih =>
    simp only [directoryFiles, Batch.file, ih, List.append_nil, List.map_cons, List.append_assoc,
      List.singleton_append]

/-- No other files are handed over: where each fails, the log tells them all. -/
theorem HandsOver.unique {files others : List Bytes} (h : HandsOver t extensions path files)
    (hothers : HandsOver t extensions path others) : files = others := by
  have hpath := h (fun c t _ => ⟨.error .canceled, [], c, t⟩) { options := .standard } []
  rw [hothers _ { options := .standard } []] at hpath
  have hlog := congrArg (fun ended => ended.2.log) hpath.symm
  simp only [log_directoryFiles_of_error, List.nil_append] at hlog
  refine List.map_injective_iff.2 (fun file other heq => ?_) hlog
  injection heq with _ _ _ hfields
  injection hfields with hfile
  injection hfile with _ hfile
  injection hfile

/-! ## What is handed over

An empty list of extensions stands for the standard ones, so the list that is searched for never is
empty, and with it the files are those that `Find.files` finds. -/

theorem searched_ne_nil (extensions : List Bytes) : searched extensions ≠ [] := by
  rw [searched]
  split_ifs with hnone
  · exact List.cons_ne_nil _ _
  · simpa using hnone

/-- What is handed over stands at or below the path and has one of the extensions. -/
theorem mem_targets_iff (ht : t.WellFormed) {node : Node} (hroot : t.lstat path = .ok (at_, node))
    (hclean : node = .dir → t.locate true (Path.clean path) = .ok (at_, .dir))
    {found : List Find.Found} (hfound : Find.files t (searched extensions) path = .ok found)
    {file : Bytes} :
    file ∈ targets t extensions path ↔ ∃ names other, (names, other) ∈ Find.within t at_ node ∧
      names.foldl Path.join path = file ∧ other ≠ .dir ∧
        Path.extension file ∈ searched extensions := by
  have htargets : targets t extensions path = found.map (·.path) := by
    rw [targets, ← searched, hfound]
    rfl
  have hperm := (Find.files_perm ht hroot hclean hfound).map (·.path)
  rw [htargets, hperm.mem_iff, List.map_map, List.mem_map]
  simp only [List.mem_filter, decide_eq_true_eq, Find.Due, searched_ne_nil, false_or]
  constructor
  · rintro ⟨⟨names, other⟩, ⟨hmem, hdir, hext⟩, rfl⟩
    exact ⟨names, other, hmem, rfl, hdir, hext⟩
  · rintro ⟨names, other, hmem, rfl, hdir, hext⟩
    exact ⟨(names, other), ⟨hmem, hdir, hext⟩, rfl⟩

theorem targets_nodup (ht : t.WellFormed) (extensions : List Bytes) (path : Bytes) :
    (targets t extensions path).Nodup := by
  refine (targets_pairwise_lt ht extensions path).imp fun hlt => ?_
  rintro rfl
  exact List.lt_irrefl _ hlt

/-- A file below a directory is handed over by its extension. -/
theorem mem_targets_of_mem_below (ht : t.WellFormed) (hat : t.IsDirAt path at_)
    {found : List Find.Found} (hfound : Find.files t (searched extensions) path = .ok found)
    {dirs : List Bytes} {name : Bytes} {node : Node} (hnode : node ≠ .dir)
    (hmem : (dirs ++ [name], node) ∈ t.below at_) :
    (dirs ++ [name]).foldl Path.join path ∈ targets t extensions path ↔
      Path.extension name ∈ searched extensions := by
  have hnames := ht.isName_of_mem_below hmem
  have hname := (hnames name (List.mem_append_right _ List.mem_cons_self)).toPiece
  obtain ⟨front, hfront, hjoin⟩ := Path.exists_foldl_join_concat hnames path
  rw [mem_targets_iff ht hat.own (fun _ => hat.spelled) hfound, hjoin,
    hname.extension_append hfront]
  constructor
  · rintro ⟨names, other, -, -, -, hext⟩
    exact hext
  · exact fun hext => ⟨_, node, List.mem_cons_of_mem _ hmem, hjoin, hnode, hext⟩

/-- A link hands over itself at most. -/
theorem targets_of_link (ht : t.WellFormed) {target : Bytes}
    (hlink : t.lstat path = .ok (at_, .link target)) {found : List Find.Found}
    (hfound : Find.files t (searched extensions) path = .ok found) :
    targets t extensions path =
      if Path.extension path ∈ searched extensions then [path] else [] := by
  have hat := (FileTree.locate_eq_ok (FileTree.lstat_eq_ok_iff.1 hlink)).2
  have hmem : ∀ {file}, file ∈ targets t extensions path ↔
      file = path ∧ Path.extension path ∈ searched extensions := by
    intro file
    rw [mem_targets_iff ht hlink nofun hfound, Find.within, ht.below_eq_nil hat nofun]
    constructor
    · rintro ⟨names, other, hmem, rfl, -, hext⟩
      obtain ⟨rfl, -⟩ := Prod.mk.inj (List.mem_singleton.1 hmem)
      exact ⟨rfl, hext⟩
    · rintro ⟨rfl, hext⟩
      exact ⟨[], _, List.mem_singleton_self _, rfl, nofun, hext⟩
  split_ifs with hext
  · refine List.perm_singleton.1 ((List.perm_ext_iff_of_nodup (targets_nodup ht extensions path)
      (List.nodup_singleton path)).2 fun file => ?_)
    rw [List.mem_singleton, hmem, and_iff_left hext]
  · exact List.eq_nil_iff_forall_not_mem.2 fun file hfile => hext (hmem.1 hfile).2

/-- **A directory that can be read is checked, unless it is given by a link.**  The files that are
handed over stand in the order of their paths, none twice.  If the path names the directory itself,
a file below it at any depth is handed over once if its extension is wanted, under a path that leads
to it if that can be spelled; if the path names a link, it is at most the link that is handed
over. -/
theorem directory_handed_over (ht : t.WellFormed) (hdir : t.stat path = .ok .dir)
    (hread : Find.Readable t path) (extensions : List Bytes) :
    ∃ files, HandsOver t extensions path files ∧ files.Pairwise (· < ·) ∧
      (∀ at_, t.IsDirAt path at_ →
        ∀ dirs name content, (dirs ++ [name], .file content) ∈ t.below at_ →
          let file := (dirs ++ [name]).foldl Path.join path
          (files.count file = if Path.extension name ∈ searched extensions then 1 else 0) ∧
          (FileTree.Spellable file →
            t.locate true file = .ok (at_ ++ (dirs ++ [name]), .file content))) ∧
      (∀ at_ target, t.lstat path = .ok (at_, .link target) →
        files = if Path.extension path ∈ searched extensions then [path] else []) := by
  obtain ⟨found, hfound⟩ := hread.exists_files (searched extensions)
  refine ⟨targets t extensions path, handsOver_targets hdir hfound,
    targets_pairwise_lt ht extensions path, ?_, ?_⟩
  · intro at_ hat dirs name content hmem
    refine ⟨?_, fun hspell => ?_⟩
    · have hnode := (FileTree.dir_ne_file content).symm
      rw [(targets_nodup ht extensions path).count]
      exact if_congr (mem_targets_of_mem_below ht hat hfound hnode hmem) rfl rfl
    · exact ht.locate_foldl_join hat.spelled hmem nofun hspell
  · exact fun at_ target hlink => targets_of_link ht hlink hfound

/-- A file in a directory of a directory, and a link to the outer one. -/
def linkedTree : FileTree where
  nodes := [([], .dir), (["work"], .dir), (["work", "d"], .dir), (["work", "d", "e"], .dir),
    (["work", "d", "e", "a.js"], .file "\x7b"), (["work", "l"], .link "d")]
  workingDir := ["work"]

theorem wellFormed_linkedTree : linkedTree.WellFormed :=
  ⟨by decide, by decide, by decide, by decide, by decide⟩

/-- A separator behind the link makes the path one of the directory itself. -/
theorem directory_handed_over_behind_separator :
    ∃ files, HandsOver linkedTree [".js"] "l/" files ∧ files.count ("l/e/a.js" : Bytes) = 1 ∧
      linkedTree.locate true "l/e/a.js" =
        .ok (["work", "d", "e", "a.js"], .file "\x7b") := by
  have hat : linkedTree.IsDirAt "l/" ["work", "d"] := ⟨rfl, rfl⟩
  have hdir : linkedTree.stat "l/" = .ok .dir := rfl
  have hread : Find.Readable linkedTree "l/" :=
    Find.readable_of_legible wellFormed_linkedTree hat.own (fun _ => hat.spelled) (by decide)
  obtain ⟨files, hfiles, -, hbelow, -⟩ :=
    directory_handed_over wellFormed_linkedTree hdir hread [".js"]
  obtain ⟨hcount, hleads⟩ := hbelow ["work", "d"] hat ["e"] "a.js" "\x7b" (by decide)
  exact ⟨files, hfiles, hcount, hleads ⟨by decide, by decide, by decide⟩⟩

/-- Without it the link still leads to the directory, but none of its files is handed over. -/
theorem linked_directory_hands_over_nothing :
    linkedTree.stat "l" = .ok .dir ∧ linkedTree.locate true "l" = .ok (["work", "d"], .dir) ∧
      ((["e", "a.js"], .file "\x7b") : List Bytes × Node) ∈ linkedTree.below ["work", "d"] ∧
      Path.extension "a.js" ∈ searched [".js"] ∧ HandsOver linkedTree [".js"] "l" [] := by
  have hdir : linkedTree.stat "l" = .ok .dir := rfl
  have hlink : linkedTree.lstat "l" = .ok (["work", "l"], .link "d") := rfl
  have hread : Find.Readable linkedTree "l" :=
    Find.readable_of_legible wellFormed_linkedTree hlink nofun (by decide)
  obtain ⟨found, hfound⟩ := hread.exists_files (searched [".js"])
  have hnone : targets linkedTree [".js"] "l" = [] :=
    (targets_of_link wellFormed_linkedTree hlink hfound).trans (if_neg (by decide))
  have hfiles := handsOver_targets hdir hfound
  rw [hnone] at hfiles
  exact ⟨hdir, rfl, by decide, by decide, hfiles⟩

end Batch

end BraceBalance
