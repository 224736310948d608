import BraceBalance.Proofs.Batch.Invariant
import BraceBalance.Proofs.Find.Walk

/-!
# Proofs/Batch/Schedules — what is found does not depend on the schedule

A pool that has come to its end holds, for each file, what the check of that file alone tells: its
results are those of the single checks, in the order of the files, and its cache tells of every file
what that check leaves (`Sound.results_eq`, `Sound.memo?_eq`).  Checking one file after the other is
a schedule too, so all schedules of a directory come to what that comes to (`schedules_agree`).
-/

namespace BraceBalance

namespace Batch

variable {c : Checker} {t : FileTree} {files : List Bytes} {limit : Nat} {first last : Int}
  {records : Records}

namespace Pool

/-! ## What a pool comes to in the end

At the end no job has missed without storing, so that memory and file agree, and each job tells what
a check of its file alone tells. -/

section

variable {p : Pool} (h : Sound c t first files records p) (hdone : p.Complete)
include h hdone

/-- A job that is over has the result of a check of its file alone, and has left the record of
one. -/
theorem Sound.of_complete {j : Job} (hj : j ∈ p.jobs) : j.stage.isOver = true ∧
    j.stage.isMissed = false ∧ j.stage.result? = (c.run t first j.file).result? ∧
      (records.lookup j.file).map Record.memo = c.settled? t first j.file := by
  obtain ⟨result, hstage⟩ := hdone j hj
  have hsound := h.jobs j hj
  rw [hstage] at hsound
  rw [hstage]
  exact ⟨rfl, rfl, hsound⟩

/-- The results are those of the files that can be checked, each checked alone. -/
theorem Sound.results_eq : p.results = files.filterMap fun file => (c.run t first file).result? := by
  rw [← h.named, List.filterMap_map, results]
  exact List.filterMap_congr fun j hj => (h.of_complete hdone hj).2.2.1

/-- The cache tells of each file what a check of it alone leaves, and of all others what it told. -/
theorem Sound.memo?_eq (name : Bytes) : p.checker.memo? name = c.cache.bind fun _ =>
    if name ∈ files then c.settled? t first name else c.memo? name := by
  rw [h.checker, Checker.memo?_holding]
  refine congrArg c.cache.bind (funext fun _ => ?_)
  split_ifs with hname
  · rw [← h.named] at hname
    obtain ⟨j, hj, rfl⟩ := List.mem_map.1 hname
    exact (h.of_complete hdone hj).2.2.2
  · rw [h.others name hname]
    rfl

/-- The cache's file holds all records if a verdict had to be stored, and is left alone
otherwise. -/
theorem Sound.tree_eq :
    ((∃ file ∈ files, c.scanned? t first file ≠ none) → p.tree = p.checker.flushed t) ∧
      ((∀ file ∈ files, c.scanned? t first file = none) → p.tree = t) := by
  rcases h.tree with ⟨htree, hover⟩ | ⟨kept, htree, hrecords, hscanned⟩
  · refine ⟨fun ⟨file, hfile, hscanned⟩ => absurd ?_ hscanned, fun _ => htree⟩
    rw [← h.named] at hfile
    obtain ⟨j, hj, rfl⟩ := List.mem_map.1 hfile
    exact hover j hj (h.of_complete hdone hj).1
  · have hmissing : ∀ name, missing p.jobs name = false := fun name =>
      List.any_eq_false.2 fun j hj => by simp [(h.of_complete hdone hj).2.1]
    have hkept : records = kept := by simpa [hmissing] using hrecords
    refine ⟨fun _ => by rw [h.checker, hkept, htree], fun hnone => ?_⟩
    obtain ⟨file, hfile, hsome⟩ := hscanned
    exact absurd (hnone file hfile) hsome

end

end Pool

/-! ## Files that stay as they are

A pool writes the file of the cache and nothing else, so that files which read the same after any
such writing stay as they are. -/

/-- A step of a job writes all records down or leaves the tree alone. -/
theorem Stage.exists_work_holding (stage : Stage) (c : Checker) (records : Records)
    (tree : FileTree) (now : Int) (file : Bytes) :
    ∃ next kept after, stage.work (c.holding records) tree now file = (next, c.holding kept, after) ∧
      (after = tree ∨ after = (c.holding kept).flushed tree) := by
  rcases stage with _ | _ | source | source | answer | result
  · exact ⟨_, _, _, rfl, .inl rfl⟩
  · rw [work]
    split_ifs
    · exact ⟨_, _, _, rfl, .inl rfl⟩
    · rcases tree.read file with e | content
      · exact ⟨_, _, _, rfl, .inl rfl⟩
      · exact ⟨_, _, _, rfl, .inl rfl⟩
  · rw [work, Checker.lookup_holding]
    rcases c.known? now source (records.lookup file) with _ | verdict
    · exact ⟨_, _, _, rfl, .inl rfl⟩
    · exact ⟨_, _, _, rfl, .inl rfl⟩
  · have hstore := c.store_holding records tree now file source (scan source.raw)
    simp only [work, hstore]
    exact ⟨_, _, _, rfl, .inr rfl⟩
  · exact ⟨_, _, _, rfl, .inl rfl⟩
  · exact ⟨_, _, _, rfl, .inl rfl⟩

/-- Of the tree a pool changes the file of the cache, and nothing else. -/
theorem Pool.exists_flushed (ht : t.WellFormed) {p : Pool}
    (h : Reaches limit first last (start c t files) p) :
    ∃ records, p.checker = c.holding records ∧
      (p.tree = t ∨ ∃ kept, p.tree = (c.holding kept).flushed t) := by
  induction h with
  | refl => exact ⟨c.records, c.holding_records.symm, .inl rfl⟩
  | tail _ hstep ih =>
    obtain ⟨records, hchecker, htree⟩ := ih
    rcases hstep with ⟨-, -⟩ | @⟨d, tree, before, after, file, stage, now, -, -, -⟩
    · exact ⟨records, hchecker, htree⟩
    · obtain rfl : d = c.holding records := hchecker
      obtain ⟨next, kept, made, hwork, hmade⟩ := stage.exists_work_holding c records tree now file
      rw [hwork]
      refine ⟨kept, rfl, ?_⟩
      rcases hmade with rfl | rfl
      · exact htree
      · rcases htree with rfl | ⟨old, rfl⟩
        · exact .inr ⟨kept, rfl⟩
        · exact .inr ⟨kept, c.flushed_flushed ht old kept⟩

/-- Files that are read the same after any writing of the cache do not change. -/
theorem Still.of_flushed (ht : t.WellFormed) (hspan : first ≤ last)
    (hread : ∀ records, ∀ file ∈ files, ((c.holding records).flushed t).read file = t.read file)
    (hages : ∀ cache ∈ c.cache, ∀ entry ∈ cache.records,
      (entry.2.age first).toInt ≤ cache.maxAge → (entry.2.age last).toInt ≤ cache.maxAge) :
    Still c t files limit first last := by
  refine ⟨hspan, fun p hp file hfile _ => ?_, hages⟩
  obtain ⟨-, -, htree | ⟨kept, htree⟩⟩ := Pool.exists_flushed ht hp
  · rw [htree]
  · rw [htree]
    exact hread kept file hfile

/-! ## Directories -/

/-- The paths of the files that stand for a directory, in the order in which they are checked. -/
def targets (t : FileTree) (extensions : List Bytes) (path : Bytes) : List Bytes :=
  let extensions := if extensions.isEmpty then standardExtensions else extensions
  ((Find.files t extensions path).toOption.getD []).map (·.path)

/-- The files of a directory are checked in the order of their paths, none twice. -/
theorem targets_pairwise_lt (ht : t.WellFormed) (extensions : List Bytes) (path : Bytes) :
    (targets t extensions path).Pairwise (· < ·) := by
  rw [targets]
  rcases hfound : Find.files t _ path with e | found
  · exact List.Pairwise.nil
  · exact Find.files_pairwise_lt ht hfound

/-- The files that stand for a directory, or why it cannot be searched for them. -/
def search (t : FileTree) (extensions : List Bytes) (path : Bytes) :
    Except Failure (List Find.Found) :=
  (Find.files t (if extensions.isEmpty then standardExtensions else extensions) path).mapError
    (.path (.walking path))

/-- A directory is searched before any of its files is checked, and then they all are. -/
theorem path_eq_directoryFiles {path : Bytes} (hdir : t.stat path = .ok .dir) (process : Process)
    (extensions : List Bytes) (c : Checker) (log : List LogEntry) :
    let ended := directoryFiles process [] ⟨c, t, log⟩ (targets t extensions path)
    Batch.path process none extensions ⟨c, t, log⟩ path =
      ((search t extensions path).map fun _ => ended.1, ended.2) := by
  rw [Batch.path, hdir]
  simp only [directory, targets, search]
  rcases Find.files t _ path with error | found
  · rfl
  · rfl

/-- **What is found does not depend on the schedule.**  Whatever the workers have done, they can go
on until all results are written down, and not for ever.  Then the results are those of the files
that can be checked, each checked alone, in the order of their paths; and checking one file after
the other, at any time meanwhile, gives the same results, unless the directory cannot be searched,
leaves a cache that tells the same, and writes its file if the workers did. -/
theorem schedules_agree {path : Bytes} {extensions : List Bytes} (ht : t.WellFormed)
    (hdir : t.stat path = .ok .dir) (hlimit : 1 ≤ limit)
    (hstill : Still c t (targets t extensions path) limit first last) :
    (targets t extensions path).Pairwise (· < ·) ∧
    (WellFounded fun q p => Pool.Step limit first last p q) ∧
    ∀ p, Pool.Reaches limit first last (.start c t (targets t extensions path)) p →
      (p.Complete ∨ ∃ q, Pool.Step limit first last p q) ∧
      (p.Complete →
        p.results =
          (targets t extensions path).filterMap (fun file => (c.run t first file).result?) ∧
        ∀ now log, first ≤ now → now ≤ last →
          ∃ s, Batch.path (fun c t file => c.run t now file) none extensions ⟨c, t, log⟩ path =
              ((search t extensions path).map fun _ => p.results, s) ∧
            (∀ name, p.checker.memo? name = s.checker.memo? name) ∧
            (p.tree = t ∧ s.tree = t ∨
              p.tree = p.checker.flushed t ∧ s.tree = s.checker.flushed t)) := by
  have hsorted := targets_pairwise_lt ht extensions path
  have hfiles : (targets t extensions path).Nodup := hsorted.imp fun hlt => by
    rintro rfl
    exact absurd hlt (List.lt_irrefl _)
  refine ⟨hsorted, Pool.wellFounded_step limit first last, fun p hp => ⟨?_, fun hdone => ?_⟩⟩
  · exact Pool.exists_step hlimit hstill.span p
  obtain ⟨records, hsound⟩ := Pool.exists_sound ht hfiles hstill hp
  refine ⟨hsound.results_eq hdone, fun now log hearly hlate => ?_⟩
  -- One after the other is a schedule too.
  obtain ⟨jobs, hjobs, hresults, hreaches⟩ := Pool.exists_reaches_directoryFiles hlimit hearly hlate
    (targets t extensions path) [] ⟨c, t, log⟩ (List.forall_mem_nil _)
  rw [path_eq_directoryFiles hdir]
  generalize directoryFiles _ [] ⟨c, t, log⟩ (targets t extensions path) = ended
    at hresults hreaches ⊢
  obtain ⟨kept, hended⟩ := Pool.exists_sound ht hfiles hstill hreaches
  have hresults' := hended.results_eq hjobs
  refine ⟨ended.2, ?_, fun name => ?_, ?_⟩
  · rw [hsound.results_eq hdone, ← hresults', hresults]
    rfl
  · rw [hsound.memo?_eq hdone]
    exact (hended.memo?_eq hjobs name).symm
  · by_cases hscanned : ∃ file ∈ targets t extensions path, c.scanned? t first file ≠ none
    · exact .inr ⟨(hsound.tree_eq hdone).1 hscanned, (hended.tree_eq hjobs).1 hscanned⟩
    · have hnone : ∀ file ∈ targets t extensions path, c.scanned? t first file = none :=
        fun file hfile => not_not.1 fun hsome => hscanned ⟨file, hfile, hsome⟩
      exact .inl ⟨(hsound.tree_eq hdone).2 hnone, (hended.tree_eq hjobs).2 hnone⟩

/-- Four files and a cache: a fresh file, one that the cache knows, a link to nowhere and a file to
be ignored. -/
def sampleTree : FileTree where
  nodes := [([], .dir), (["work"], .dir), (["work", "cache"], .dir), (["work", "b.js"], .file "ok"),
    (["work", "a.js"], .file "\x7d"), (["work", "c.js"], .link "gone"),
    (["work", "d.js"], .file "ok")]
  workingDir := ["work"]

@[inherit_doc sampleTree]
def sampleChecker : Checker where
  options := .standard
  ignoredPaths := ["d.js"]
  cache := some { dir := "cache", records := [("b.js", ⟨("ok" : Bytes).digest, scan "ok", 0⟩)],
                  maxAge := 10 }

theorem wellFormed_sampleTree : sampleTree.WellFormed :=
  ⟨by decide, by decide, by decide, by decide, by decide⟩

theorem readable_sampleTree : Find.Readable sampleTree "." :=
  Find.readable_of_legible wellFormed_sampleTree rfl (fun _ => rfl) (by decide)

theorem targets_sampleTree :
    targets sampleTree [] "." = (["a.js", "b.js", "c.js", "d.js"] : List Bytes) := by
  obtain ⟨found, hfound⟩ := readable_sampleTree.exists_files standardExtensions
  have hperm := Find.files_perm wellFormed_sampleTree rfl (fun _ => rfl) hfound
  have htargets : targets sampleTree [] "." = found.map (·.path) := by
    simp only [targets, List.isEmpty_nil, if_true, hfound]
    rfl
  have hpaths : (targets sampleTree [] ".").Perm
      (["b.js", "a.js", "c.js", "d.js"] : List Bytes) := by
    rw [htargets]
    exact hperm.map _
  refine List.Perm.eq_of_pairwise (fun a b _ _ hlt hgt => absurd hgt (List.lt_asymm hlt))
    (targets_pairwise_lt wellFormed_sampleTree [] ".") (by decide) ?_
  exact hpaths.trans (.swap _ _ _)

theorem flushed_sampleTree (records : Records) : (sampleChecker.holding records).flushed sampleTree =
    sampleTree.set ["work", "cache", "brace_cache.gob"] (.file (Records.encode records)) := by
  have hpath : Cache.path "cache" = "cache/brace_cache.gob" := by decide
  have hplace : sampleTree.resolve true "cache/brace_cache.gob" =
      .ok (.absent ["work", "cache"] "brace_cache.gob") := rfl
  have hcreate : ∀ content, sampleTree.create "cache/brace_cache.gob" content =
      .ok (sampleTree.set ["work", "cache", "brace_cache.gob"] (.file content)) := by
    intro content
    rw [FileTree.create, hplace]
    rfl
  simp only [Checker.flushed, Checker.holding, sampleChecker, Option.map_some, Option.bind_some,
    Cache.flush, hpath, hcreate]
  rfl

theorem result?_sample : ∃ a b, (sampleChecker.run sampleTree 3 "a.js").result? = some a ∧
    (sampleChecker.run sampleTree 3 "b.js").result? = some b ∧
      a.filename = "a.js" ∧ a.cached = false ∧ b.filename = "b.js" ∧ b.cached = true := by
  have hscanned : sampleChecker.scanned? sampleTree 3 "a.js" = some (Source.ofContent "\x7d") := rfl
  have hsource : sampleChecker.source? sampleTree "b.js" = some (Source.ofContent "ok") := rfl
  have hraw : (Source.ofContent "ok").raw = "ok" := rfl
  have hrecord : sampleChecker.recordOf "b.js" = some ⟨("ok" : Bytes).digest, scan "ok", 0⟩ := rfl
  have hknown : sampleChecker.known? 3 (Source.ofContent "ok") (sampleChecker.recordOf "b.js") =
      some (scan "ok") := by
    rw [hrecord, Checker.known?]
    simp [sampleChecker, Cache.fresh, Record.toInt_age, hraw]
  rw [Checker.Checked.result?, Checker.Checked.result?, Checker.run_of_scanned hscanned,
    Checker.run_of_known hsource hknown]
  exact ⟨_, _, rfl, rfl, rfl, rfl, rfl, rfl⟩

/-- Two workers, while the cache's record is good. -/
theorem schedules_agree_sample :
    let files : List Bytes := ["a.js", "b.js", "c.js", "d.js"]
    targets sampleTree [] "." = files ∧ Still sampleChecker sampleTree files 2 3 8 ∧
      (∃ p, Pool.Reaches 2 3 8 (.start sampleChecker sampleTree files) p ∧ p.Complete) ∧
      ∀ p, Pool.Reaches 2 3 8 (.start sampleChecker sampleTree files) p → p.Complete →
        p.results.map (fun r => (r.filename, r.cached)) =
          ([("a.js", false), ("b.js", true)] : List (Bytes × Bool)) := by
  intro files
  have htargets : targets sampleTree [] "." = files := targets_sampleTree
  have hread : ∀ records, ∀ file ∈ files,
      ((sampleChecker.holding records).flushed sampleTree).read file = sampleTree.read file := by
    intro records file hfile
    rw [flushed_sampleTree]
    simp only [files, List.mem_cons, List.not_mem_nil, or_false] at hfile
    rcases hfile with rfl | rfl | rfl | rfl <;> rfl
  have hages : ∀ cache ∈ sampleChecker.cache, ∀ entry ∈ cache.records,
      (entry.2.age 3).toInt ≤ cache.maxAge → (entry.2.age 8).toInt ≤ cache.maxAge := by
    intro cache hcache entry hentry _
    obtain rfl := Option.some.inj hcache
    rw [List.mem_singleton.1 hentry]
    decide
  have hworkers : 1 ≤ 2 := by decide
  have hspan : (3 : Int) ≤ 8 := by decide
  have hstill : Still sampleChecker sampleTree files 2 3 8 :=
    .of_flushed wellFormed_sampleTree hspan hread hages
  have hstill' : Still sampleChecker sampleTree (targets sampleTree [] ".") 2 3 8 := by
    rwa [htargets]
  obtain ⟨-, -, hagree⟩ := schedules_agree wellFormed_sampleTree (by decide) hworkers hstill'
  rw [htargets] at hagree
  obtain ⟨jobs, hjobs, -, hreaches⟩ := Pool.exists_reaches_directoryFiles hworkers (le_refl 3) hspan
    files [] ⟨sampleChecker, sampleTree, []⟩ (List.forall_mem_nil _)
  refine ⟨htargets, hstill, ⟨_, hreaches, hjobs⟩, fun p hp hdone => ?_⟩
  obtain ⟨a, b, ha, hb, hname, hfresh, hname', hcached⟩ := result?_sample
  have hc : (sampleChecker.run sampleTree 3 "c.js").result? = none := rfl
  have hd : (sampleChecker.run sampleTree 3 "d.js").result? = none := rfl
  rw [((hagree p hp).2 hdone).1]
  simp only [files, List.filterMap_cons, List.filterMap_nil, ha, hb, hc, hd, List.map_cons,
    List.map_nil, hname, hfresh, hname', hcached]

end Batch

end BraceBalance
