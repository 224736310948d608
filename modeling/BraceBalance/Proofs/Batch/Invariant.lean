import BraceBalance.Proofs.Batch.Pool
import Mathlib.Data.List.Nodup

/-!
# Proofs/Batch/Invariant — what every step of a pool keeps

The jobs of a pool share the cache, in memory and in its file, but each of them touches the record of
its own file alone, and the files have names of their own.  So every job meets what it would meet if
it were the only one, whatever the others have done (`Stage.Sound`), and what a whole pool comes to
is told by the checks of the single files (`Pool.Sound`).

The file of the cache is written anew with each verdict that is stored.  A look-up that misses drops
a record without writing, and the job that missed stores its verdict later: so the file lags behind
the memory by the records of jobs that have missed and not stored yet, and by nothing at the end.
-/

namespace BraceBalance

/-- What a record tells, whenever it was made. -/
def Record.memo (r : Record) : Bytes × Verdict := (r.digest, r.verdict)

namespace Checker

/-- What the cache tells of a file. -/
def memo? (c : Checker) (name : Bytes) : Option (Bytes × Verdict) :=
  (c.recordOf name).map Record.memo

/-- What a cache tells of a file is told by the record of that file. -/
theorem memo?_holding (c : Checker) (records : Records) (name : Bytes) :
    (c.holding records).memo? name =
      c.cache.bind fun _ => (records.lookup name).map Record.memo := by
  obtain ⟨options, severities, rules, paths, _ | cache⟩ := c <;> rfl

/-- What a cache tells of a file after a check of it: the verdict on its source if that had to be
scanned, and otherwise what was told before. -/
def settled? (c : Checker) (t : FileTree) (first : Int) (file : Bytes) : Option (Bytes × Verdict) :=
  match c.scanned? t first file with
  | some source => some (source.raw.digest, scan source.raw)
  | none => c.memo? file

theorem settled?_of_not_scanned {c : Checker} {t : FileTree} {first : Int} {file : Bytes}
    (h : c.scanned? t first file = none) : c.settled? t first file = c.memo? file := by
  rw [settled?, h]

end Checker

namespace Batch

variable {c : Checker} {t tree : FileTree} {files : List Bytes} {limit : Nat}
  {first last now : Int} {file : Bytes} {records : Records} {stage next : Stage}

/-- Nothing that a check of these files reads changes from `first` to `last`. -/
structure Still (c : Checker) (t : FileTree) (files : List Bytes) (limit : Nat)
    (first last : Int) : Prop where
  span : first ≤ last
  /-- The files that are checked stay as they are. -/
  read : ∀ p, Pool.Reaches limit first last (.start c t files) p →
    ∀ file ∈ files, c.isIgnored file = false → p.tree.read file = t.read file
  /-- No record of the cache gets too old. -/
  ages : ∀ cache ∈ c.cache, ∀ entry ∈ cache.records,
    (entry.2.age first).toInt ≤ cache.maxAge → (entry.2.age last).toInt ≤ cache.maxAge

/-- Whatever time it is from `first` to `last`, the records at hand count or do not count alike. -/
theorem Still.known?_eq (h : Still c t files limit first last) (hearly : first ≤ now)
    (hlate : now ≤ last) (source : Source) :
    c.known? now source (c.recordOf file) = c.known? first source (c.recordOf file) := by
  rcases hcache : c.cache with _ | cache
  · simp [Checker.known?, hcache]
  rcases hrecord : c.recordOf file with _ | r
  · simp [Checker.known?]
  have hlookup : cache.records.lookup file = some r := by
    rwa [Checker.recordOf, Checker.records, hcache] at hrecord
  obtain ⟨before, after, hrecords, -⟩ := List.lookup_eq_some_iff.1 hlookup
  have hage : (r.age first).toInt ≤ cache.maxAge → (r.age last).toInt ≤ cache.maxAge :=
    h.ages cache hcache (file, r) (by simp [hrecords])
  have hfresh : cache.fresh now source.raw r = cache.fresh first source.raw r := by
    rw [Cache.fresh, Cache.fresh]
    refine congrArg (· && r.digest == source.raw.digest) (decide_eq_decide.2 ⟨?_, ?_⟩)
    · exact Int.le_trans (r.age_mono hearly)
    · exact fun hfirst => Int.le_trans (r.age_mono hlate) (hage hfirst)
  rw [Checker.known?, Checker.known?, hcache]
  exact congrArg (fun fresh => if fresh = true then some r.verdict else none) hfresh

/-! ## What a worker's step comes to

A step of a job either goes on and leaves all records, or misses and drops one, or stores one and
writes them all down. -/

namespace Stage

/-- Whether the cache was looked up in vain and has no new verdict yet. -/
def isMissed : Stage → Bool
  | missed _ => true
  | _ => false

theorem eq_missed (h : stage.isMissed = true) : ∃ source, stage = missed source := by
  rcases stage with _ | _ | source | source | answer | result
  · exact absurd h Bool.false_ne_true
  · exact absurd h Bool.false_ne_true
  · exact absurd h Bool.false_ne_true
  · exact ⟨source, rfl⟩
  · exact absurd h Bool.false_ne_true
  · exact absurd h Bool.false_ne_true

/-- Whether the check is over. -/
def isOver : Stage → Bool
  | answered _ | written _ => true
  | _ => false

/-- A job has met what it would meet if it were the only one, and the record of its file is what it
would be then. -/
def Sound (c : Checker) (t : FileTree) (first : Int) (file : Bytes) (record : Option Record) :
    Stage → Prop
  | waiting | begun => record = c.recordOf file
  | read source => c.source? t file = some source ∧ record = c.recordOf file
  | missed source => c.scanned? t first file = some source ∧ record = none
  | answered answer =>
    answer = (c.run t first file).answer ∧ record.map Record.memo = c.settled? t first file
  | written result =>
    result = (c.run t first file).result? ∧ record.map Record.memo = c.settled? t first file

/-- What a step of a job comes to, by what it leaves of the records and of the tree. -/
inductive Moves (c : Checker) (t : FileTree) (first : Int) (file : Bytes) (records : Records)
    (tree : FileTree) (stage : Stage) : Stage → Records → FileTree → Prop
  | goOn {next : Stage} (sound : next.Sound c t first file (records.lookup file))
      (was : stage.isMissed = false) (stays : next.isMissed = false)
      (ended : next.isOver = true → stage.isOver = true ∨ c.scanned? t first file = none) :
      Moves c t first file records tree stage next records tree
  | miss {source : Source} (scanned : c.scanned? t first file = some source) :
      Moves c t first file records tree stage (missed source) (records.filter (·.1 ≠ file)) tree
  | store {source : Source} {kept : Records} {now : Int}
      (scanned : c.scanned? t first file = some source)
      (stored : kept =
        (file, ⟨source.raw.digest, scan source.raw, now⟩) :: records.filter (·.1 ≠ file)) :
      Moves c t first file records tree stage (answered (c.run t first file).answer) kept
        ((c.holding kept).flushed tree)

theorem scanned?_eq_none_of_source? (first : Int) (h : c.source? t file = none) :
    c.scanned? t first file = none := by
  rw [Checker.scanned?, h]
  rfl

/-- **A worker meets what it would meet alone.** -/
theorem Sound.moves (h : stage.Sound c t first file (records.lookup file))
    (hstill : Still c t files limit first last)
    (hread : c.isIgnored file = false → tree.read file = t.read file)
    (hearly : first ≤ now) (hlate : now ≤ last) (hbusy : stage.busy = true) :
    ∃ next kept after, stage.work (c.holding records) tree now file =
        (next, c.holding kept, after) ∧
      Moves c t first file records tree stage next kept after := by
  rcases stage with _ | _ | source | source | answer | result
  · exact absurd hbusy Bool.false_ne_true
  · -- The file is ignored, cannot be read, or is read, as it would be alone.
    have hrecord : records.lookup file = c.recordOf file := h
    have hend : ∀ answer, c.source? t file = none → answer = (c.run t first file).answer →
        Moves c t first file records tree begun (answered answer) records tree := by
      intro answer hsource hanswer
      have hscanned := scanned?_eq_none_of_source? first hsource
      refine .goOn ⟨hanswer, ?_⟩ rfl rfl fun _ => .inr hscanned
      rw [hrecord, Checker.settled?_of_not_scanned hscanned]
      rfl
    rcases c.run_cases t first file with
      ⟨hignored, hrun⟩ | ⟨e, hignored, hfailed, hrun⟩ | ⟨content, hignored, hcontent, -⟩
    · have hsource : c.source? t file = none := if_pos hignored
      exact ⟨_, _, _, if_pos hignored, hend _ hsource (by rw [hrun])⟩
    · have hsource : c.source? t file = none := by
        rw [Checker.source?, hignored, hfailed]
        rfl
      have hwork : begun.work (c.holding records) tree now file =
          (answered (.error (.path .readingFile e)), c.holding records, tree) := by
        rw [work, Checker.isIgnored_holding, hignored, if_neg Bool.false_ne_true,
          hread hignored, hfailed]
      exact ⟨_, _, _, hwork, hend _ hsource (by rw [hrun])⟩
    · have hsource : c.source? t file = some (Source.ofContent content) :=
        Checker.source?_eq_some_iff.2 ⟨hignored, content, hcontent, rfl⟩
      have hwork : begun.work (c.holding records) tree now file =
          (read (Source.ofContent content), c.holding records, tree) := by
        rw [work, Checker.isIgnored_holding, hignored, if_neg Bool.false_ne_true,
          hread hignored, hcontent]
      exact ⟨_, _, _, hwork, .goOn ⟨hsource, hrecord⟩ rfl rfl fun hended =>
        absurd hended Bool.false_ne_true⟩
  · -- The record of the file is the one it had, and tells the same all the time.
    obtain ⟨hsource, hrecord⟩ := h
    have hlookup := c.lookup_holding records now file source
    rw [hrecord, hstill.known?_eq hearly hlate] at hlookup
    rcases hknown : c.known? first source (c.recordOf file) with _ | verdict
    · have hscanned := Checker.scanned?_eq_some_iff.2 ⟨hsource, hknown⟩
      rw [hknown] at hlookup
      exact ⟨_, _, _, by rw [work, hlookup], .miss hscanned⟩
    · have hscanned : c.scanned? t first file = none := by
        refine Option.eq_none_iff_forall_ne_some.2 fun other hother => ?_
        obtain ⟨hother, hnone⟩ := Checker.scanned?_eq_some_iff.1 hother
        obtain rfl := Option.some.inj (hsource.symm.trans hother)
        exact Option.some_ne_none verdict (hknown.symm.trans hnone)
      rw [hknown] at hlookup
      have hwork : (read source).work (c.holding records) tree now file =
          (answered (.ok (some { c.result file source verdict with cached := true })),
            c.holding records, tree) := by
        rw [work, hlookup]
        rfl
      refine ⟨_, _, _, hwork, .goOn ⟨?_, ?_⟩ rfl rfl fun _ => .inr hscanned⟩
      · exact (Checker.run_of_known hsource hknown).symm
      · rw [hrecord, Checker.settled?_of_not_scanned hscanned]
        rfl
  · obtain ⟨hscanned, -⟩ := h
    let stored := (file, ⟨source.raw.digest, scan source.raw, now⟩) :: records.filter (·.1 ≠ file)
    have hwork : (missed source).work (c.holding records) tree now file =
        (answered (c.run t first file).answer, c.holding stored,
          (c.holding stored).flushed tree) := by
      have hstore : ((c.holding records).store tree now file source (scan source.raw)).2 =
          (c.holding stored, (c.holding stored).flushed tree) :=
        c.store_holding records tree now file source (scan source.raw)
      rw [work, Checker.run_of_scanned hscanned]
      simp only [hstore]
      rfl
    exact ⟨_, _, _, hwork, .store hscanned rfl⟩
  · obtain ⟨hanswer, hsettled⟩ := h
    refine ⟨_, _, _, rfl, .goOn ⟨?_, hsettled⟩ rfl rfl fun _ => .inl rfl⟩
    rw [hanswer]
    rfl
  · exact absurd hbusy Bool.false_ne_true

/-- Another file's record is left alone. -/
theorem Moves.lookup_of_ne {kept : Records} {after : FileTree} {other : Bytes}
    (h : Moves c t first file records tree stage next kept after) (hother : other ≠ file) :
    kept.lookup other = records.lookup other := by
  rcases h with ⟨-, -, -, -⟩ | ⟨-⟩ | ⟨-, rfl⟩
  · rfl
  · exact lookup_filter_ne hother records
  · rw [List.lookup_cons, beq_false_of_ne hother]
    exact lookup_filter_ne hother records

/-- After such a step a job has met what it would meet alone. -/
theorem Moves.sound {kept : Records} {after : FileTree}
    (h : Moves c t first file records tree stage next kept after) :
    next.Sound c t first file (kept.lookup file) := by
  rcases h with ⟨sound, -, -, -⟩ | ⟨scanned⟩ | @⟨source, -, now, scanned, rfl⟩
  · exact sound
  · exact ⟨scanned, lookup_filter_self records file⟩
  · refine ⟨rfl, ?_⟩
    rw [Checker.settled?, scanned, List.lookup_cons_self]
    rfl

end Stage

/-! ## What every step keeps

The jobs of a pool are kept apart by the names of their files: a step changes the record of its own
file, and the conditions of all other jobs speak of other records. -/

/-- Whether a job of this file has missed and has not stored its verdict. -/
def missing (jobs : List Job) (name : Bytes) : Bool :=
  jobs.any fun j => j.file == name && j.stage.isMissed

/-- Whether a file has lost its record is told by its own job or by one of the others. -/
theorem missing_middle (before after : List Job) (file : Bytes) (stage : Stage) (name : Bytes) :
    missing (before ++ ⟨file, stage⟩ :: after) name =
      ((file == name && stage.isMissed) || missing (before ++ after) name) := by
  simp only [missing, List.any_append, List.any_cons]
  exact Bool.or_left_comm _ _ _

namespace Pool

/-- What the file of the cache holds: what it held, as long as no verdict was stored, and then all
records of the memory and those that jobs have dropped since. -/
def Written (c : Checker) (t : FileTree) (first : Int) (files : List Bytes) (records : Records)
    (tree : FileTree) (jobs : List Job) : Prop :=
  (tree = t ∧ ∀ j ∈ jobs, j.stage.isOver = true → c.scanned? t first j.file = none) ∨
    ∃ kept : Records, tree = (c.holding kept).flushed t ∧
      records = kept.filter (fun entry => !missing jobs entry.1) ∧
      ∃ file ∈ files, c.scanned? t first file ≠ none

/-- What holds of a pool however its steps come. -/
structure Sound (c : Checker) (t : FileTree) (first : Int) (files : List Bytes) (records : Records)
    (p : Pool) : Prop where
  checker : p.checker = c.holding records
  named : p.jobs.map Job.file = files
  jobs : ∀ j ∈ p.jobs, j.stage.Sound c t first j.file (records.lookup j.file)
  others : ∀ name ∉ files, records.lookup name = c.recordOf name
  tree : Written c t first files records p.tree p.jobs

theorem Sound.mem_files {p : Pool} {j : Job} (h : Sound c t first files records p)
    (hj : j ∈ p.jobs) : j.file ∈ files :=
  h.named ▸ List.mem_map_of_mem hj

/-- A pool that has not begun meets all conditions. -/
theorem sound_start (c : Checker) (t : FileTree) (first : Int) (files : List Bytes) :
    (start c t files).Sound c t first files c.records := by
  refine ⟨c.holding_records.symm, ?_, ?_, fun _ _ => rfl, .inl ⟨rfl, ?_⟩⟩
  · rw [start, queue, List.map_map]
    exact List.map_id' files
  · intro j hj
    obtain ⟨file, -, rfl⟩ := List.mem_map.1 hj
    rfl
  · intro j hj hended
    obtain ⟨file, -, rfl⟩ := List.mem_map.1 hj
    exact absurd hended Bool.false_ne_true

variable {before after : List Job} {kept : Records} {made : FileTree}

theorem mem_middle {j k : Job} : j ∈ before ++ k :: after ↔ j = k ∨ j ∈ before ++ after := by
  simp [or_left_comm]

/-- A job that is missing its record has none in the memory either. -/
theorem lookup_of_missing {jobs : List Job} {name : Bytes}
    (hjobs : ∀ j ∈ jobs, j.stage.Sound c t first j.file (records.lookup j.file))
    (h : missing jobs name = true) : records.lookup name = none ∧ ∃ j ∈ jobs, j.file = name := by
  obtain ⟨j, hj, hmissed⟩ := List.any_eq_true.1 h
  obtain ⟨hname, hstage⟩ := Bool.and_eq_true_iff.1 hmissed
  obtain ⟨source, hstage⟩ := Stage.eq_missed hstage
  have hsound := hjobs j hj
  rw [hstage, eq_of_beq hname] at hsound
  exact ⟨hsound.2, j, hj, eq_of_beq hname⟩

/-- The cache's file follows a step of a job. -/
theorem Written.move (h : Written c t first files records tree (before ++ ⟨file, stage⟩ :: after))
    (ht : t.WellFormed) (hfile : file ∈ files)
    (hrest : ∀ j ∈ before ++ after, j.file ≠ file ∧
      j.stage.Sound c t first j.file (records.lookup j.file))
    (hmove : stage.Moves c t first file records tree next kept made) :
    Written c t first files kept made (before ++ ⟨file, next⟩ :: after) := by
  rcases hmove with ⟨-, was, stays, hended⟩ | ⟨-⟩ | @⟨source, _, now, scanned, hstored⟩
  · rcases h with ⟨htree, hnone⟩ | ⟨old, htree, hrecords, hscanned⟩
    · refine .inl ⟨htree, fun j hj hjover => ?_⟩
      rcases mem_middle.1 hj with rfl | hj
      · exact (hended hjover).elim (hnone _ (mem_middle.2 (.inl rfl))) id
      · exact hnone j (mem_middle.2 (.inr hj)) hjover
    · refine .inr ⟨old, htree, hrecords.trans ?_, hscanned⟩
      refine List.filter_congr fun entry _ => ?_
      rw [missing_middle, missing_middle, was, stays]
  · rcases h with ⟨htree, hnone⟩ | ⟨old, htree, hrecords, hscanned⟩
    · refine .inl ⟨htree, fun j hj hjover => ?_⟩
      rcases mem_middle.1 hj with rfl | hj
      · exact absurd hjover Bool.false_ne_true
      · exact hnone j (mem_middle.2 (.inr hj)) hjover
    · refine .inr ⟨old, htree, ?_, hscanned⟩
      rw [hrecords, List.filter_filter]
      refine List.filter_congr fun entry _ => ?_
      rw [missing_middle, missing_middle]
      by_cases hentry : entry.1 = file
      · simp [hentry, Stage.isMissed]
      · simp [hentry, beq_false_of_ne (Ne.symm hentry)]
  · refine .inr ⟨kept, ?_, ?_, file, hfile, scanned ▸ Option.some_ne_none source⟩
    · rcases h with ⟨rfl, -⟩ | ⟨old, rfl, -, -⟩
      · rfl
      · exact c.flushed_flushed ht old kept
    · refine (List.filter_eq_self.2 fun entry hentry => ?_).symm
      have hanswered : Stage.isMissed (.answered (c.run t first file).answer) = false := rfl
      rw [missing_middle, hanswered, Bool.and_false, Bool.false_or, Bool.not_eq_true']
      refine Bool.eq_false_iff.2 fun hmissing => ?_
      obtain ⟨hnone, j, hj, hname⟩ := lookup_of_missing (fun j hj => (hrest j hj).2) hmissing
      rw [hstored] at hentry
      rcases List.mem_cons.1 hentry with rfl | hentry
      · exact (hrest j hj).1 hname
      · have hmem := (List.mem_filter.1 hentry).1
        exact bne_iff_ne.1 (List.lookup_eq_none_iff.1 hnone entry hmem) rfl

/-- **A step of one job keeps what holds of the pool.** -/
theorem Sound.move {d : Checker} (h : Sound c t first files records
      ⟨d, tree, before ++ ⟨file, stage⟩ :: after⟩) (ht : t.WellFormed) (hfiles : files.Nodup)
    (hmove : stage.Moves c t first file records tree next kept made) :
    Sound c t first files kept ⟨c.holding kept, made, before ++ ⟨file, next⟩ :: after⟩ := by
  have hnamed : (before ++ ⟨file, stage⟩ :: after).map Job.file = files := h.named
  have hfile : file ∈ files := h.mem_files (j := ⟨file, stage⟩) (mem_middle.2 (.inl rfl))
  have hother : ∀ j ∈ before ++ after, j.file ≠ file := by
    rw [← hnamed, List.map_append, List.map_cons, List.nodup_middle, List.nodup_cons,
      ← List.map_append] at hfiles
    exact fun j hj heq => hfiles.1 (List.mem_map.2 ⟨j, hj, heq⟩)
  have hrest : ∀ j ∈ before ++ after, j.file ≠ file ∧
      j.stage.Sound c t first j.file (records.lookup j.file) := fun j hj =>
    ⟨hother j hj, h.jobs j (mem_middle.2 (.inr hj))⟩
  refine ⟨rfl, ?_, ?_, ?_, h.tree.move ht hfile hrest hmove⟩
  · rw [← hnamed, List.map_append, List.map_append]
    rfl
  · intro j hj
    rcases mem_middle.1 hj with rfl | hj
    · exact hmove.sound
    · obtain ⟨hne, hsound⟩ := hrest j hj
      rwa [hmove.lookup_of_ne hne]
  · intro name hname
    have hne : name ≠ file := fun heq => hname (heq ▸ hfile)
    rw [hmove.lookup_of_ne hne]
    exact h.others name hname

/-- **Every step keeps what holds of a pool.** -/
theorem Sound.step {p q : Pool} (h : Sound c t first files records p) (ht : t.WellFormed)
    (hfiles : files.Nodup) (hstill : Still c t files limit first last)
    (hread : ∀ file ∈ files, c.isIgnored file = false → p.tree.read file = t.read file)
    (hstep : Step limit first last p q) : ∃ kept, Sound c t first files kept q := by
  rcases hstep with @⟨d, tree, before, after, file, -, -⟩ |
    @⟨d, tree, before, after, file, stage, now, hbusy, hearly, hlate⟩
  all_goals obtain rfl : d = c.holding records := h.checker
  · have hwaiting := h.jobs ⟨file, .waiting⟩ (mem_middle.2 (.inl rfl))
    exact ⟨records, h.move ht hfiles (.goOn hwaiting rfl rfl fun hended =>
      absurd hended Bool.false_ne_true)⟩
  · have hjob : ⟨file, stage⟩ ∈ before ++ ⟨file, stage⟩ :: after := mem_middle.2 (.inl rfl)
    obtain ⟨next, kept, made, hwork, hmove⟩ :=
      (h.jobs _ hjob).moves hstill (hread file (h.mem_files hjob)) hearly hlate hbusy
    rw [hwork]
    exact ⟨kept, h.move ht hfiles hmove⟩

/-- **What holds of a pool holds however its steps come.** -/
theorem exists_sound (ht : t.WellFormed) (hfiles : files.Nodup)
    (hstill : Still c t files limit first last) {p : Pool}
    (h : Reaches limit first last (start c t files) p) :
    ∃ records, Sound c t first files records p := by
  induction h with
  | refl => exact ⟨c.records, sound_start c t first files⟩
  | tail hp hstep ih =>
    obtain ⟨records, hsound⟩ := ih
    exact hsound.step ht hfiles hstill (hstill.read _ hp) hstep

end Pool

end Batch

end BraceBalance
