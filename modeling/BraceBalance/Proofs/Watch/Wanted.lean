import BraceBalance.Proofs.Batch.Directories
import BraceBalance.Proofs.Watch.Coalescing

/-!
# Proofs/Watch/Wanted — which files a check and a watch care for

    extensions ──the standard ones if there are none──▸ files that a directory hands over
               ──as they are────────────────────────▸ files whose events put a check off

One list of extensions says what a check reads and what a watch reads again.  Both look at the last
name of a path, so how its directory is spelled makes no difference; but only the check falls back
on the standard extensions.  So they agree on a file unless the list is empty and the file has one
of these (`check_and_watch_agree`).
-/

namespace BraceBalance

variable {t : FileTree} {paths extensions : List Bytes}

/-- A watcher is started with the extensions as they are given. -/
theorem Watcher.eq_of_start {w : Watcher} (h : start t paths extensions = .ok w) :
    w.extensions = extensions ∧ w.debouncer = {} := by
  rw [start] at h
  generalize (paths.mapM _ : Except Failure (List (List Bytes))) = placed at h
  rcases placed with failure | dirs
  · cases h
  · obtain rfl := Except.ok.inj h
    exact ⟨rfl, rfl⟩

/-- Whether a file that was written is checked again, is a matter of its last name. -/
theorem FileEvent.relevant_iff {front name : Bytes} (hfront : Path.Leading front)
    (hname : Path.Piece name) {operations : List FileOperation} (hwrite : .write ∈ operations) :
    (FileEvent.mk (front ++ name) operations).relevant extensions = true ↔
      Path.extension name ∈ extensions := by
  have hoperation : operations.contains .write = true := List.contains_iff_mem.2 hwrite
  rw [relevant, hoperation, Bool.true_or, Bool.true_and, hname.extension_append hfront,
    List.contains_iff_mem]

/-- An event of a file that is not pending makes it so exactly if it is relevant. -/
theorem Debouncer.Sound.mem_pending_handle {d : Debouncer} (h : d.Sound)
    (hrunning : d.stopped = false) {e : FileEvent} (hidle : e.name ∉ d.pending) :
    e.name ∈ (d.handle extensions e).pending ↔ e.relevant extensions = true := by
  rw [handle]
  split_ifs with hrelevant
  · simp [h.mem_pending_trigger hrunning, hrelevant]
  · simp [hidle, hrelevant]

/-- **A check and a watch agree, but for an empty list.**  Of a file below a directory and a path of
it in an event: the directory hands the file over if its extension is one of those searched for, and
a write puts off a check of it if its extension is one of those given.  The two come to the same
unless none are given and the file has a standard extension. -/
theorem check_and_watch_agree {path : Bytes} {at_ : Location} (ht : t.WellFormed)
    (hat : t.IsDirAt path at_) {dirs : List Bytes} {name content : Bytes}
    (hmem : (dirs ++ [name], .file content) ∈ t.below at_)
    {files : List Bytes} (hfiles : Batch.HandsOver t extensions path files)
    {w : Watcher} (hwatch : Watcher.start t paths extensions = .ok w)
    (actions : List Debouncer.Action) {front : Bytes} (hfront : Path.Leading front)
    {operations : List FileOperation} (hwrite : .write ∈ operations) :
    let d := (w.debouncer.steps actions).2
    let event := FileEvent.mk (front ++ name) operations
    let handed := (dirs ++ [name]).foldl Path.join path ∈ files
    let rechecked := event.name ∈ (d.handle w.extensions event).pending
    d.stopped = false → event.name ∉ d.pending →
      (handed ↔ Path.extension name ∈ Batch.searched extensions) ∧
      (rechecked ↔ Path.extension name ∈ extensions) ∧
      ((handed ↔ rechecked) ↔ extensions ≠ [] ∨ Path.extension name ∉ standardExtensions) := by
  intro d event handed rechecked hrunning hidle
  have hname := ht.isName_of_mem_below hmem name (List.mem_append_right _ List.mem_cons_self)
  have hhanded : handed ↔ Path.extension name ∈ Batch.searched extensions := by
    have hdir := FileTree.stat_of_lstat hat.own nofun
    obtain ⟨found, hfound⟩ := hfiles.exists_found hdir
    have hnode := (FileTree.dir_ne_file content).symm
    have htargets := hfiles.unique (Batch.handsOver_targets hdir hfound)
    rw [← Batch.mem_targets_of_mem_below ht hat hfound hnode hmem, ← htargets]
  have hrechecked : rechecked ↔ Path.extension name ∈ extensions := by
    obtain ⟨hextensions, hstart⟩ := Watcher.eq_of_start hwatch
    have hsound : w.debouncer.Sound := hstart ▸ Debouncer.sound_empty
    refine ((hsound.steps actions).mem_pending_handle hrunning hidle).trans ?_
    rw [hextensions]
    exact FileEvent.relevant_iff hfront hname.toPiece hwrite
  refine ⟨hhanded, hrechecked, ?_⟩
  rw [hhanded, hrechecked, Batch.searched]
  rcases extensions with _ | ⟨first, more⟩
  · simp
  · simp

/-- A script in the working directory. -/
def scriptTree : FileTree := FileTree.empty.set ["work", "a.js"] (.file "\x7b")

theorem wellFormed_scriptTree : scriptTree.WellFormed :=
  ⟨by decide, by decide, by decide, by decide, by decide⟩

theorem scriptTree_isDirAt : scriptTree.IsDirAt "." ["work"] := ⟨rfl, rfl⟩

theorem readable_scriptTree : Find.Readable scriptTree "." :=
  Find.readable_of_legible wellFormed_scriptTree scriptTree_isDirAt.own
    (fun _ => scriptTree_isDirAt.spelled) (by decide)

/-- The tree of the script can be watched with any extensions. -/
theorem exists_start_scriptTree (extensions : List Bytes) :
    ∃ dirs, Watcher.start scriptTree ["."] extensions = .ok ⟨dirs, extensions, {}⟩ := by
  obtain ⟨dirs, hdirs⟩ := readable_scriptTree.exists_directories
  rw [Watcher.start, List.mapM_cons, List.mapM_nil, hdirs]
  exact ⟨_, rfl⟩

theorem script_mem_below :
    (([] : List Bytes) ++ [("a.js" : Bytes)], Node.file "\x7b") ∈ scriptTree.below ["work"] := by
  decide

/-- With its extension given, a script is checked and checked again. -/
theorem check_and_watch_agree_script :
    ∃ files w, Batch.HandsOver scriptTree [".js"] "." files ∧
      Watcher.start scriptTree ["."] [".js"] = .ok w ∧ ("a.js" : Bytes) ∈ files ∧
      ("./a.js" : Bytes) ∈ (w.debouncer.handle w.extensions ⟨"./a.js", [.write]⟩).pending := by
  have hat := scriptTree_isDirAt
  obtain ⟨found, hfound⟩ := readable_scriptTree.exists_files (Batch.searched [".js"])
  have hfiles := Batch.handsOver_targets (show scriptTree.stat "." = .ok .dir from rfl) hfound
  obtain ⟨watched, hwatch⟩ := exists_start_scriptTree [".js"]
  have hwrite : FileOperation.write ∈ [FileOperation.write] := List.mem_cons_self
  obtain ⟨hhanded, hrechecked, -⟩ := check_and_watch_agree wellFormed_scriptTree hat script_mem_below
    hfiles hwatch [] (Path.leading_append_separator ".") hwrite rfl List.not_mem_nil
  exact ⟨_, _, hfiles, hwatch, hhanded.2 (by decide), hrechecked.2 (by decide)⟩

/-- With no extensions given, a script is checked, but no write to it is ever noticed. -/
theorem script_checked_but_not_watched :
    ∃ files w, Batch.HandsOver scriptTree [] "." files ∧
      Watcher.start scriptTree ["."] [] = .ok w ∧ ("a.js" : Bytes) ∈ files ∧
      ∀ d : Debouncer, d.handle w.extensions ⟨"./a.js", [.write]⟩ = d := by
  obtain ⟨found, hfound⟩ := readable_scriptTree.exists_files (Batch.searched [])
  have hfiles := Batch.handsOver_targets (show scriptTree.stat "." = .ok .dir from rfl) hfound
  obtain ⟨watched, hwatch⟩ := exists_start_scriptTree []
  have hnode := (FileTree.dir_ne_file "\x7b").symm
  have hhanded : ("a.js" : Bytes) ∈ Batch.targets scriptTree [] "." :=
    (Batch.mem_targets_of_mem_below wellFormed_scriptTree scriptTree_isDirAt hfound hnode
      script_mem_below).2 (by decide)
  exact ⟨_, _, hfiles, hwatch, hhanded, fun d => rfl⟩

end BraceBalance
