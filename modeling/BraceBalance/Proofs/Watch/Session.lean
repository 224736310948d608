import BraceBalance.Proofs.Checker.Records
import BraceBalance.Proofs.Watch.Debouncer
import BraceBalance.Watch.Watcher

/-!
# Proofs/Watch/Session — a watcher at work, and what its handler is told

A `Session` is a watcher with its history of calls.  To its debouncer an event is a trigger or
nothing and an edit of files is nothing (`Session.run_debouncer`), so what holds of all steps of a
debouncer carries over.  The handler is told of the calls in turn (`Session.Kept`), and of each what
a check of the file gives on what it held at the time of the call (`Call.faithful`).
-/

namespace BraceBalance

/-! ## A watcher at work -/

/-- Something that happens while files are watched. -/
inductive Occurrence where
  /-- The watcher is told of a file. -/
  | event (e : FileEvent)
  /-- Files are written, removed or changed in any other way. -/
  | edit (tree : FileTree)
  /-- The debouncer takes a step, at this time. -/
  | step (action : Debouncer.Action) (now : Int)

namespace Occurrence

/-- A change of files or the news of one. -/
def isChange : Occurrence → Bool
  | event _ | edit _ => true
  | step _ _ => false

/-- A timer comes further, or files change. -/
def isExpiry : Occurrence → Bool
  | event _ => false
  | edit _ => true
  | step action _ => action.inner

/-- What an occurrence is to the debouncer. -/
def action? (extensions : List Bytes) : Occurrence → Option Debouncer.Action
  | event e => if e.relevant extensions then some (.trigger e.name) else none
  | edit _ => none
  | step action _ => some action

/-- The file whose check an occurrence asks for. -/
def asked? (extensions : List Bytes) : Occurrence → Option Bytes
  | event e => if e.relevant extensions then some e.name else none
  | edit _ | step _ _ => none

end Occurrence

/-- A check that was called for: of which file and when, and what it was made with. -/
structure Call where
  name : Bytes
  now : Int
  checker : Checker
  tree : FileTree

/-- What the handler is told of a call; nothing if the file is ignored. -/
def Call.outcome? (k : Call) : Option (Except Failure Result) :=
  match (k.checker.run k.tree k.now k.name).answer with
  | .ok none => none
  | .ok (some result) => some (.ok result)
  | .error failure => some (.error failure)

/-- A watcher at work. -/
structure Session where
  extensions : List Bytes
  debouncer : Debouncer := {}
  checks : Rechecked
  /-- The calls made so far. -/
  calls : List Call := []

namespace Session

variable {s : Session} {c : Checker}

/-- A watcher that was just started. -/
def start (extensions : List Bytes) (c : Checker) (t : FileTree) : Session :=
  { extensions, checks := { checker := c, tree := t } }

/-- A call is made, on the files as they are. -/
def call (s : Session) (now : Int) (name : Bytes) : Session :=
  { s with
    checks := s.checks.run now name
    calls := s.calls ++ [⟨name, now, s.checks.checker, s.checks.tree⟩] }

/-- The session after an occurrence. -/
def next (s : Session) : Occurrence → Session
  | .event e => { s with debouncer := s.debouncer.handle s.extensions e }
  | .edit tree => { s with checks := { s.checks with tree } }
  | .step action now =>
    let (called, debouncer) := s.debouncer.step action
    called.toList.foldl (·.call now ·) { s with debouncer }

/-- The session after occurrences in turn. -/
def run (s : Session) (occurrences : List Occurrence) : Session := occurrences.foldl next s

theorem run_cons (s : Session) (o : Occurrence) (more : List Occurrence) :
    s.run (o :: more) = (s.next o).run more := rfl

/-! ## What the debouncer sees

What files hold, and what was checked so far, has no part in when a call is made. -/

/-- A step calls for one check at most, of the key whose call begins. -/
theorem next_step (s : Session) (a : Debouncer.Action) (now : Int) :
    (s.next (.step a now)).debouncer = (s.debouncer.step a).2 ∧
      (s.next (.step a now)).extensions = s.extensions ∧
      (s.next (.step a now)).checks =
        (s.debouncer.step a).1.toList.foldl (·.run now ·) s.checks ∧
      (s.next (.step a now)).calls.map Call.name =
        s.calls.map Call.name ++ (s.debouncer.step a).1.toList := by
  rw [next]
  rcases s.debouncer.step a with ⟨_ | name, d⟩
  · exact ⟨rfl, rfl, rfl, (List.append_nil _).symm⟩
  · exact ⟨rfl, rfl, rfl, by simp [call]⟩

/-- **Events are triggers or nothing, and edits are nothing.** -/
theorem run_debouncer (s : Session) (occurrences : List Occurrence) :
    (s.run occurrences).debouncer =
        (s.debouncer.steps (occurrences.filterMap (·.action? s.extensions))).2 ∧
      (s.run occurrences).calls.map Call.name =
        s.calls.map Call.name ++
          (s.debouncer.steps (occurrences.filterMap (·.action? s.extensions))).1 := by
  induction occurrences generalizing s with
  | nil => exact ⟨rfl, (List.append_nil _).symm⟩
  | cons o more ih =>
    rw [run_cons]
    rcases o with e | tree | ⟨a, now⟩
    · obtain ⟨hdebouncer, hcalls⟩ := ih (s.next (.event e))
      rw [hdebouncer, hcalls]
      by_cases he : e.relevant s.extensions = true
      · rw [List.filterMap_cons_some (by rw [Occurrence.action?, if_pos he]), Debouncer.steps_cons]
        simp [next, Debouncer.handle, he, Debouncer.step]
      · rw [List.filterMap_cons_none (by rw [Occurrence.action?, if_neg he])]
        simp [next, Debouncer.handle, he]
    · exact ih (s.next (.edit tree))
    · obtain ⟨hdebouncer, hcalls⟩ := ih (s.next (.step a now))
      obtain ⟨hnext, hextensions, -, hnames⟩ := s.next_step a now
      rw [hextensions, hnext] at hdebouncer hcalls
      rw [hdebouncer, hcalls, hnames, List.append_assoc]
      exact ⟨rfl, rfl⟩

theorem run_append (s : Session) (first more : List Occurrence) :
    s.run (first ++ more) = (s.run first).run more := List.foldl_append

/-- Steps at one time are checks of the files they call. -/
theorem run_steps (s : Session) (actions : List Debouncer.Action) (now : Int) :
    (s.run (actions.map (.step · now))).debouncer = (s.debouncer.steps actions).2 ∧
      (s.run (actions.map (.step · now))).checks =
        (s.debouncer.steps actions).1.foldl (·.run now ·) s.checks := by
  induction actions generalizing s with
  | nil => exact ⟨rfl, rfl⟩
  | cons a more ih =>
    obtain ⟨hdebouncer, -, hchecks, -⟩ := s.next_step a now
    obtain ⟨hlater, hmore⟩ := ih (s.next (.step a now))
    rw [List.map_cons, run_cons, hlater, hmore, hdebouncer, hchecks, Debouncer.steps_cons,
      List.foldl_append]
    exact ⟨rfl, rfl⟩

/-! ## What the handler is told -/

/-- What holds of a session with this checker: the handler was told of the calls in turn, and they
were made with the checker and whatever records its cache held. -/
structure Kept (c : Checker) (s : Session) : Prop where
  told : s.checks.outcomes = s.calls.filterMap Call.outcome?
  checker : ∃ records, s.checks.checker = c.holding records
  calls : ∀ k ∈ s.calls, ∃ records, k.checker = c.holding records

/-- A session that was just started has told nothing. -/
theorem kept_start (extensions : List Bytes) (c : Checker) (t : FileTree) :
    (start extensions c t).Kept c :=
  ⟨rfl, ⟨c.records, c.holding_records.symm⟩, nofun⟩

/-- The handler is told what the check of a file gives. -/
theorem outcomes_run (r : Rechecked) (now : Int) (name : Bytes) :
    (r.run now name).outcomes =
      r.outcomes ++ (Call.outcome? ⟨name, now, r.checker, r.tree⟩).toList := by
  rw [Rechecked.run, Call.outcome?]
  rcases (r.checker.run r.tree now name).answer with failure | _ | result <;> rfl

namespace Kept

/-- A call is told in its turn, and leaves a checker that differs in its records at most. -/
theorem call (h : s.Kept c) (now : Int) (name : Bytes) : (s.call now name).Kept c := by
  obtain ⟨records, hchecker⟩ := h.checker
  refine ⟨?_, ?_, ?_⟩
  · rw [Session.call, outcomes_run, h.told, List.filterMap_append]
    rfl
  · obtain ⟨later, hrun⟩ := s.checks.checker.exists_run_holding s.checks.tree now name
    refine ⟨later, hrun.trans ?_⟩
    rw [hchecker, Checker.holding_holding]
  · intro k hk
    rcases List.mem_append.1 hk with hk | hk
    · exact h.calls k hk
    · rw [List.mem_singleton.1 hk]
      exact ⟨records, hchecker⟩

/-- So does whatever occurs. -/
theorem next (h : s.Kept c) (o : Occurrence) : (s.next o).Kept c := by
  rcases o with e | tree | ⟨a, now⟩
  · exact ⟨h.told, h.checker, h.calls⟩
  · exact ⟨h.told, h.checker, h.calls⟩
  · rw [Session.next]
    rcases s.debouncer.step a with ⟨_ | name, d⟩
    · exact ⟨h.told, h.checker, h.calls⟩
    · have hstepped : { s with debouncer := d }.Kept c := ⟨h.told, h.checker, h.calls⟩
      exact hstepped.call now name

theorem run (h : s.Kept c) (occurrences : List Occurrence) : (s.run occurrences).Kept c := by
  induction occurrences generalizing s with
  | nil => exact h
  | cons o more ih => exact ih (h.next o)

end Kept

end Session

/-- The handler was told what a check of the file gives with this checker, on what the file held at
the time of the call. -/
structure Call.Faithful (c : Checker) (k : Call) : Prop where
  ignored : k.outcome? = none ↔ c.isIgnored k.name = true
  /-- A file that is gone, or cannot be read for another reason, is an error. -/
  unread : c.isIgnored k.name = false → ∀ e, k.tree.read k.name = .error e →
    k.outcome? = some (.error (.path .readingFile e))
  checked : c.isIgnored k.name = false → ∀ content, k.tree.read k.name = .ok content →
    ∃ r, k.outcome? = some (.ok r) ∧ r.filename = k.name ∧ r.source = Source.ofContent content ∧
      (c.cache = none →
        r = c.result k.name (Source.ofContent content) (scan (Source.ofContent content).raw))

/-- A call is told what a check of its file gives, whatever records the checker holds. -/
theorem Call.faithful {c : Checker} {k : Call} {records : Records}
    (h : k.checker = c.holding records) : k.Faithful c := by
  obtain ⟨name, now, checker, t⟩ := k
  obtain rfl : checker = c.holding records := h
  have hignored := c.isIgnored_holding records name
  refine ⟨?_, fun hwanted e hread => ?_, fun hwanted content hread => ?_⟩
  · rw [← hignored]
    rcases (c.holding records).run_cases t now name with
      ⟨hyes, hrun⟩ | ⟨e, hno, -, hrun⟩ | ⟨content, hno, hread, -⟩
    · simp [Call.outcome?, hrun, hyes]
    · simp [Call.outcome?, hrun, hno]
    · obtain ⟨r, hanswer, -⟩ := Checker.exists_answer_of_read hno hread now
      simp [Call.outcome?, hanswer, hno]
  · rcases (c.holding records).run_cases t now name with
      ⟨hyes, -⟩ | ⟨e', -, hread', hrun⟩ | ⟨content, -, hread', -⟩
    · exact absurd (hwanted.symm.trans hyes) Bool.false_ne_true
    · obtain rfl : e' = e := Except.error.inj (hread'.symm.trans hread)
      simp [Call.outcome?, hrun]
    · exact absurd (hread'.symm.trans hread) nofun
  · obtain ⟨r, hanswer, hname, hsource, hresult⟩ :=
      Checker.exists_answer_of_read (hignored.trans hwanted) hread now
    refine ⟨r, by simp [Call.outcome?, hanswer], hname, hsource, fun hnone => ?_⟩
    exact hresult (by rw [Checker.holding, hnone]; rfl)

end BraceBalance
