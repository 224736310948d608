import BraceBalance.Batch
import BraceBalance.Proofs.Checker.Records
import Mathlib.Algebra.GroupWithZero.Nat
import Mathlib.Logic.Relation
import Mathlib.Order.WellFounded

/-!
# Proofs/Batch/Pool — the files of a directory, checked by several workers

    waiting ──▸ begun ──▸ read ──▸ (missed) ──▸ answered ──▸ written

A `Pool` holds one job a file.  Jobs begin in the order of the files, at most `limit` of them at work
together; a job at work reads its file, looks the source up in the cache that all share, stores the
verdict if it had to scan, and writes its result down, and between two of these steps any other job
may take its own.  Every step brings a job further, so a pool cannot go on for ever
(`wellFounded_step`), and it stops only when all results are written down (`exists_step`).  Checking
the files one after the other is one way to go (`exists_reaches_directoryFiles`).
-/

namespace BraceBalance

/-- The result of a check; none if it failed or the file is ignored. -/
def Checker.Checked.result? (d : Checker.Checked) : Option Result := d.answer.toOption.bind id

namespace Batch

/-- How far the check of a file has come. -/
inductive Stage where
  | waiting
  | begun
  | read (source : Source)
  /-- The cache has no verdict on the source. -/
  | missed (source : Source)
  | answered (answer : Except Failure (Option Result))
  | written (result : Option Result)

namespace Stage

def isWaiting : Stage → Bool
  | waiting => true
  | _ => false

/-- Whether a worker is at it. -/
def busy : Stage → Bool
  | waiting | written _ => false
  | _ => true

/-- How many steps are left, at most. -/
def left : Stage → Nat
  | waiting => 5
  | begun => 4
  | read _ => 3
  | missed _ => 2
  | answered _ => 1
  | written _ => 0

/-- The result that was written down. -/
def result? : Stage → Option Result
  | written result => result
  | _ => none

/-- One step of a worker on a file, and what it leaves of the checker and the tree. -/
def work (c : Checker) (t : FileTree) (now : Int) (file : Bytes) :
    Stage → Stage × Checker × FileTree
  | waiting => (waiting, c, t)
  | begun =>
    if c.isIgnored file then (answered (.ok none), c, t)
    else match t.read file with
      | .ok content => (read (Source.ofContent content), c, t)
      | .error error => (answered (.error (.path .readingFile error)), c, t)
  | read source =>
    match c.lookup now file source with
    | (some verdict, c) =>
      (answered (.ok (some { c.result file source verdict with cached := true })), c, t)
    | (none, c) => (missed source, c, t)
  | missed source =>
    let (_, c, t) := c.store t now file source (scan source.raw)
    (answered (.ok (some (c.result file source (scan source.raw)))), c, t)
  | answered answer => (written (answer.toOption.bind id), c, t)
  | written result => (written result, c, t)

end Stage

/-- The check of a file. -/
structure Job where
  file : Bytes
  stage : Stage := .waiting

/-- Checks under way, with the checker and the tree they share. -/
structure Pool where
  checker : Checker
  tree : FileTree
  /-- The jobs, in the order of their files. -/
  jobs : List Job

namespace Pool

/-- Jobs that have not begun. -/
def queue (files : List Bytes) : List Job := files.map ({ file := · })

/-- No check has begun. -/
def start (c : Checker) (t : FileTree) (files : List Bytes) : Pool := ⟨c, t, queue files⟩

/-- Every result is written down. -/
def Complete (p : Pool) : Prop := ∀ j ∈ p.jobs, ∃ result, j.stage = .written result

/-- The results written down, in the order of the files. -/
def results (p : Pool) : List Result := p.jobs.filterMap (·.stage.result?)

/-- How many steps are left, at most. -/
def left (p : Pool) : Nat := (p.jobs.map (·.stage.left)).sum

/-- One step of a pool with this many workers, at any time from `first` to `last`. -/
inductive Step (limit : Nat) (first last : Int) : Pool → Pool → Prop
  /-- The next job begins, if a worker is free. -/
  | begin {c : Checker} {t : FileTree} {before after : List Job} {file : Bytes}
      (turn : ∀ j ∈ before, j.stage.isWaiting = false)
      (free : (before ++ after).countP (·.stage.busy) < limit) :
      Step limit first last ⟨c, t, before ++ ⟨file, .waiting⟩ :: after⟩
        ⟨c, t, before ++ ⟨file, .begun⟩ :: after⟩
  /-- A worker takes a step on its file. -/
  | work {c : Checker} {t : FileTree} {before after : List Job} {file : Bytes} {stage : Stage}
      {now : Int} (busy : stage.busy = true) (early : first ≤ now) (late : now ≤ last) :
      Step limit first last ⟨c, t, before ++ ⟨file, stage⟩ :: after⟩
        ⟨(stage.work c t now file).2.1, (stage.work c t now file).2.2,
          before ++ ⟨file, (stage.work c t now file).1⟩ :: after⟩

/-- What a pool can come to. -/
abbrev Reaches (limit : Nat) (first last : Int) : Pool → Pool → Prop :=
  Relation.ReflTransGen (Step limit first last)

/-! ## No pool goes on for ever, and none gets stuck

The steps that are left to the jobs add up to a number that every step makes smaller. -/

section

variable {limit : Nat} {first last : Int} {p q : Pool}

/-- A step of a job leaves it fewer steps to take. -/
theorem left_work_lt {stage : Stage} (h : stage.busy = true) (c : Checker) (t : FileTree)
    (now : Int) (file : Bytes) : (stage.work c t now file).1.left < stage.left := by
  rcases stage with _ | _ | source | source | answer | result
  · exact absurd h Bool.false_ne_true
  · rw [Stage.work]
    have hanswered : 1 < 4 := by decide
    split_ifs
    · exact hanswered
    · rcases t.read file with e | content
      · exact hanswered
      · exact Nat.lt_succ_self 3
  · rw [Stage.work]
    rcases c.lookup now file source with ⟨_ | verdict, c⟩
    · exact Nat.lt_succ_self 2
    · exact Nat.lt_succ_of_lt (Nat.lt_succ_self 1)
  · exact Nat.lt_succ_self 1
  · exact Nat.lt_succ_self 0
  · exact absurd h Bool.false_ne_true

/-- A step of a pool leaves it fewer steps to take. -/
theorem Step.left_lt (h : Step limit first last p q) : q.left < p.left := by
  rcases h with ⟨turn, free⟩ | ⟨busy, early, late⟩
  · simp only [left, List.map_append, List.map_cons, List.sum_append, List.sum_cons]
    exact Nat.add_lt_add_left (Nat.add_lt_add_right (Nat.lt_succ_self 4) _) _
  · simp only [left, List.map_append, List.map_cons, List.sum_append, List.sum_cons]
    exact Nat.add_lt_add_left (Nat.add_lt_add_right (left_work_lt busy _ _ _ _) _) _

/-- **No pool goes on for ever.** -/
theorem wellFounded_step (limit : Nat) (first last : Int) :
    WellFounded fun q p => Step limit first last p q :=
  Subrelation.wf Step.left_lt (measure left).wf

theorem eq_waiting {stage : Stage} (h : stage.isWaiting = true) : stage = .waiting := by
  rcases stage with _ | _ | source | source | answer | result
  · rfl
  all_goals exact absurd h Bool.false_ne_true

theorem exists_written {stage : Stage} (hbusy : stage.busy = false)
    (hbegun : stage.isWaiting = false) : ∃ result, stage = .written result := by
  rcases stage with _ | _ | source | source | answer | result
  · exact absurd hbegun.symm Bool.false_ne_true
  · exact absurd hbusy.symm Bool.false_ne_true
  · exact absurd hbusy.symm Bool.false_ne_true
  · exact absurd hbusy.symm Bool.false_ne_true
  · exact absurd hbusy.symm Bool.false_ne_true
  · exact ⟨result, rfl⟩

/-- **A pool stops only when all results are written down.** -/
theorem exists_step (hlimit : 1 ≤ limit) (hspan : first ≤ last) (p : Pool) :
    p.Complete ∨ ∃ q, Step limit first last p q := by
  obtain ⟨c, t, jobs⟩ := p
  by_cases hbusy : ∃ j ∈ jobs, j.stage.busy = true
  · obtain ⟨⟨file, stage⟩, hj, hstage⟩ := hbusy
    obtain ⟨before, after, rfl⟩ := List.append_of_mem hj
    exact .inr ⟨_, .work hstage (le_refl first) hspan⟩
  have hidle : ∀ j ∈ jobs, j.stage.busy = false := fun j hj =>
    Bool.eq_false_iff.2 fun hj' => hbusy ⟨j, hj, hj'⟩
  -- Nobody is at work, so there is room for the next job, if one is left.
  rcases hnext : jobs.find? (·.stage.isWaiting) with _ | ⟨file, stage⟩
  · left
    intro j hj
    have hbegun : j.stage.isWaiting = false :=
      Bool.eq_false_iff.2 (List.find?_eq_none.1 hnext j hj)
    exact exists_written (hidle j hj) hbegun
  · right
    obtain ⟨hwaiting, before, after, rfl, hturn⟩ := List.find?_eq_some_iff_append.1 hnext
    obtain rfl := eq_waiting hwaiting
    have hnone : (before ++ after).countP (·.stage.busy) = 0 :=
      List.countP_eq_zero.2 fun j hj => by
        simp [hidle j (List.mem_append.2 ((List.mem_append.1 hj).imp_right (.tail _)))]
    refine ⟨_, .begin (fun j hj => ?_) (hnone.trans_lt hlimit)⟩
    simpa using hturn j hj

/-! ## One file after the other -/

/-- A job among others may take its next step at any time in between. -/
theorem Step.of_work {c d : Checker} {t u : FileTree} {before after : List Job} {file : Bytes}
    {stage next : Stage} {now : Int} (hearly : first ≤ now) (hlate : now ≤ last)
    (hbusy : stage.busy = true) (h : stage.work c t now file = (next, d, u)) :
    Step limit first last ⟨c, t, before ++ ⟨file, stage⟩ :: after⟩
      ⟨d, u, before ++ ⟨file, next⟩ :: after⟩ := by
  have hstep : Step limit first last ⟨c, t, before ++ ⟨file, stage⟩ :: after⟩ _ :=
    .work hbusy hearly hlate
  rwa [h] at hstep

/-- A job that takes all its steps together is the check of its file. -/
theorem reaches_run {c : Checker} {t : FileTree} {before after : List Job} {file : Bytes} {now : Int}
    (hearly : first ≤ now) (hlate : now ≤ last) (hturn : ∀ j ∈ before, j.stage.isWaiting = false)
    (hfree : (before ++ after).countP (·.stage.busy) < limit) :
    Reaches limit first last ⟨c, t, before ++ ⟨file, .waiting⟩ :: after⟩
      ⟨(c.run t now file).checker, (c.run t now file).tree,
        before ++ ⟨file, .written (c.run t now file).result?⟩ :: after⟩ := by
  have hbegun : Reaches limit first last ⟨c, t, before ++ ⟨file, .waiting⟩ :: after⟩
      ⟨c, t, before ++ ⟨file, .begun⟩ :: after⟩ := .single (.begin hturn hfree)
  -- From an answer on, all cases are alike.
  have hwrite : ∀ (answer : Except Failure (Option Result)) (d : Checker) (u : FileTree),
      Step limit first last ⟨d, u, before ++ ⟨file, .answered answer⟩ :: after⟩
        ⟨d, u, before ++ ⟨file, .written (answer.toOption.bind id)⟩ :: after⟩ :=
    fun answer d u => .of_work hearly hlate rfl rfl
  rcases c.run_cases t now file with
    ⟨hignored, hrun⟩ | ⟨e, hignored, hread, hrun⟩ | ⟨content, hignored, hread, hrun⟩
  · have hanswer : Stage.begun.work c t now file = (.answered (.ok none), c, t) := if_pos hignored
    rw [hrun]
    exact (hbegun.tail (.of_work hearly hlate rfl hanswer)).tail (hwrite _ _ _)
  · have hanswer : Stage.begun.work c t now file =
        (.answered (.error (.path .readingFile e)), c, t) := by
      rw [Stage.work, hignored, if_neg Bool.false_ne_true, hread]
    rw [hrun]
    exact (hbegun.tail (.of_work hearly hlate rfl hanswer)).tail (hwrite _ _ _)
  · have hopened : Stage.begun.work c t now file = (.read (Source.ofContent content), c, t) := by
      rw [Stage.work, hignored, if_neg Bool.false_ne_true, hread]
    have hsource := hbegun.tail (.of_work hearly hlate rfl hopened)
    rw [hrun, Checker.runRead]
    rcases hlookup : c.lookup now file (Source.ofContent content) with ⟨_ | verdict, d⟩
    · have hmissed : (Stage.read (Source.ofContent content)).work c t now file =
          (.missed (Source.ofContent content), d, t) := by
        rw [Stage.work, hlookup]
      exact ((hsource.tail (.of_work hearly hlate rfl hmissed)).tail
        (.of_work hearly hlate rfl rfl)).tail (hwrite _ _ _)
    · have hfound : (Stage.read (Source.ofContent content)).work c t now file =
          (.answered (.ok (some { d.result file (Source.ofContent content) verdict with
            cached := true })), d, t) := by
        rw [Stage.work, hlookup]
      exact (hsource.tail (.of_work hearly hlate rfl hfound)).tail (hwrite _ _ _)

end

end Pool

/-- The first file is checked, and then the others with what that leaves. -/
theorem exists_directoryFiles_cons (process : Process) (done : List Result) (p : Progress)
    (file : Bytes) (rest : List Bytes) :
    ∃ log, directoryFiles process done p (file :: rest) =
      directoryFiles process ((process p.checker p.tree file).result?.toList ++ done)
        ⟨(process p.checker p.tree file).checker, (process p.checker p.tree file).tree, log⟩ rest := by
  rw [directoryFiles, Batch.file, Checker.Checked.result?]
  rcases (process p.checker p.tree file).answer with failure | result
  · exact ⟨_, rfl⟩
  · exact ⟨_, rfl⟩

namespace Pool

variable {limit : Nat} {first last now : Int}

/-- **Checking the files one after the other is one way to go.** -/
theorem exists_reaches_directoryFiles (hlimit : 1 ≤ limit) (hearly : first ≤ now)
    (hlate : now ≤ last) (files : List Bytes) (done : List Result) (s : Progress)
    {before : List Job} (hbefore : ∀ j ∈ before, ∃ result, j.stage = .written result) :
    let ended := directoryFiles (fun c t file => c.run t now file) done s files
    ∃ jobs : List Job, (∀ j ∈ jobs, ∃ result, j.stage = .written result) ∧
      ended.1 = done.reverse ++ jobs.filterMap (·.stage.result?) ∧
      Reaches limit first last ⟨s.checker, s.tree, before ++ queue files⟩
        ⟨ended.2.checker, ended.2.tree, before ++ jobs⟩ := by
  induction files generalizing done s before with
  | nil => exact ⟨[], nofun, (List.append_nil _).symm, .refl⟩
  | cons file rest ih =>
    obtain ⟨log, hcons⟩ :=
      exists_directoryFiles_cons (fun c t file => c.run t now file) done s file rest
    dsimp only at hcons ⊢
    generalize hchecked : s.checker.run s.tree now file = checked at hcons
    have hturn : ∀ j ∈ before, j.stage.isWaiting = false := by
      intro j hj
      obtain ⟨result, hstage⟩ := hbefore j hj
      rw [hstage]
      rfl
    have hidle : (before ++ queue rest).countP (·.stage.busy) = 0 := by
      refine List.countP_eq_zero.2 fun j hj => ?_
      rcases List.mem_append.1 hj with hj | hj
      · obtain ⟨result, hstage⟩ := hbefore j hj
        rw [hstage]
        exact Bool.false_ne_true
      · obtain ⟨other, -, rfl⟩ := List.mem_map.1 hj
        exact Bool.false_ne_true
    have hrun : Reaches limit first last ⟨s.checker, s.tree, before ++ queue (file :: rest)⟩
        ⟨checked.checker, checked.tree,
          before ++ ⟨file, .written checked.result?⟩ :: queue rest⟩ := by
      rw [← hchecked]
      exact reaches_run hearly hlate hturn (hidle.trans_lt hlimit)
    have hbefore' : ∀ j ∈ before ++ [⟨file, .written checked.result?⟩],
        ∃ result, Job.stage j = .written result := by
      intro j hj
      rcases List.mem_append.1 hj with hj | hj
      · exact hbefore j hj
      · exact ⟨checked.result?, by rw [List.mem_singleton.1 hj]⟩
    obtain ⟨jobs, hjobs, hresults, hrest⟩ := ih (checked.result?.toList ++ done)
      ⟨checked.checker, checked.tree, log⟩ hbefore'
    rw [List.append_assoc, List.append_assoc] at hrest
    refine ⟨⟨file, .written checked.result?⟩ :: jobs, ?_, ?_, ?_⟩
    · exact List.forall_mem_cons.2 ⟨⟨_, rfl⟩, hjobs⟩
    · rw [hcons, hresults, List.reverse_append, List.append_assoc]
      congr 1
      rcases hresult : checked.result? with _ | result
      · rfl
      · rfl
    · rw [hcons]
      exact hrun.trans hrest

end Pool

end Batch

end BraceBalance
