import BraceBalance.Proofs.Watch.Delivery
import BraceBalance.Proofs.Watch.Session

/-!
# Proofs/Watch/Coalescing — one check per file, on what it holds by then

    event, event, edit, event …  ──▸  pending  ──expiries in any order──▸  one call a name

While no timer runs out, triggers alone make their keys pending (`Sound.steps_triggers`) and the
timers stand for the pending keys (`Sound.keys_perm_pending`); when all timers have run out no call
is left (`Sound.timers_settle`).  By the account of calls, what was called in between are the pending
names, each once.
-/

namespace BraceBalance

namespace Debouncer

variable {d : Debouncer} {key name : Bytes}

/-! ## Triggers

A trigger of a pending key moves its timer to the end; a trigger of any other key adds one there. -/

/-- A key is pending if a timer is stored for it. -/
theorem mem_pending : name ∈ d.pending ↔ ∃ id, (name, id) ∈ d.current := by
  rw [pending, List.mem_map]
  exact ⟨fun ⟨entry, hentry, hname⟩ => ⟨entry.2, hname ▸ hentry⟩, fun ⟨id, hid⟩ => ⟨_, hid, rfl⟩⟩

namespace Sound

/-- A trigger makes its key pending, and no other. -/
theorem mem_pending_trigger (h : d.Sound) (hrunning : d.stopped = false) :
    name ∈ (d.trigger key).pending ↔ name = key ∨ name ∈ d.pending := by
  rw [trigger, hrunning, if_neg Bool.false_ne_true]
  rcases harmed : d.armed? key with _ | t
  · simp only [pending, List.map_cons, List.mem_cons, List.mem_map, List.mem_filter,
      decide_eq_true_eq]
    by_cases hname : name = key
    · simp [hname]
    · simp only [hname, false_or]
      constructor
      · rintro ⟨entry, ⟨hentry, -⟩, hfst⟩
        exact ⟨entry, hentry, hfst⟩
      · rintro ⟨entry, hentry, rfl⟩
        exact ⟨entry, ⟨hentry, hname⟩, rfl⟩
  · -- A timer that runs is stored, so its key is pending already.
    obtain ⟨ht, rfl, hphase⟩ := h.armed?_eq_some_iff.1 harmed
    have hstored : t.key ∈ d.pending := mem_pending.2 ⟨t.id, h.stored t ht hphase⟩
    exact ⟨.inr, fun hname => hname.elim (fun heq => heq ▸ hstored) id⟩

/-- While no timer has run out, the timers stand for the pending keys. -/
theorem keys_perm_pending (h : d.Sound) (harmed : ∀ t ∈ d.timers, t.phase = .armed) :
    (d.timers.map Timer.key).Perm d.pending := by
  have hdistinct : (d.timers.map fun t => (t.key, t.id)).Nodup := by
    refine List.Nodup.of_map Prod.snd ?_
    rw [List.map_map]
    exact h.distinct
  have hperm : (d.timers.map fun t => (t.key, t.id)).Perm d.current := by
    refine (List.perm_ext_iff_of_nodup hdistinct (.of_map _ h.keyed)).2 fun entry => ?_
    constructor
    · intro hentry
      obtain ⟨t, ht, rfl⟩ := List.mem_map.1 hentry
      exact h.stored t ht (harmed t ht)
    · intro hentry
      obtain ⟨t, ht, hpair, -⟩ := h.waiting entry hentry
      exact List.mem_map.2 ⟨t, ht, hpair⟩
  have hkeys := hperm.map Prod.fst
  rwa [List.map_map] at hkeys

end Sound

/-- A trigger arms a timer or puts one off, and calls nobody. -/
theorem Happens.armed_of_trigger {e : Debouncer} {called : Option Bytes}
    (h : Happens d (.trigger key) called e) (harmed : ∀ t ∈ d.timers, t.phase = .armed) :
    ∀ t ∈ e.timers, t.phase = .armed := by
  cases h with
  | nothing => exact harmed
  | putOff split =>
    refine fun t ht => harmed t ?_
    rw [split]
    simpa [or_left_comm, or_comm] using ht
  | arm =>
    intro t ht
    rcases List.mem_append.1 ht with ht | ht
    · exact harmed t ht
    · rw [List.mem_singleton.1 ht]

/-- **Triggers alone make their keys pending, and nothing else.** -/
theorem Sound.steps_triggers (h : d.Sound) (hrunning : d.stopped = false)
    (harmed : ∀ t ∈ d.timers, t.phase = .armed) (keys : List Bytes) :
    (d.steps (keys.map .trigger)).1 = [] ∧
      (d.steps (keys.map .trigger)).2.stopped = false ∧
      (∀ t ∈ (d.steps (keys.map .trigger)).2.timers, t.phase = .armed) ∧
      ∀ name, name ∈ (d.steps (keys.map .trigger)).2.pending ↔ name ∈ keys ∨ name ∈ d.pending := by
  induction keys generalizing d with
  | nil => exact ⟨rfl, hrunning, harmed, by simp [Debouncer.steps]⟩
  | cons key keys ih =>
    have htriggered := h.happens_trigger key
    have hstill := htriggered.running hrunning (by simp)
    obtain ⟨hcalls, hstopped, hphases, hnames⟩ :=
      ih (htriggered.sound h) hstill (htriggered.armed_of_trigger harmed)
    refine ⟨hcalls, hstopped, hphases, fun name => (hnames name).trans ?_⟩
    rw [h.mem_pending_trigger hrunning, List.mem_cons, or_left_comm, or_assoc]

/-! ## All timers run out

A timer that has run out is let in and calls before the next one runs out, in the order they were
armed. -/

/-- Steps behind others are taken from where those lead, and call what they call in addition. -/
theorem steps_append (d : Debouncer) (actions more : List Action) :
    d.steps (actions ++ more) =
      ((d.steps actions).1 ++ ((d.steps actions).2.steps more).1,
        ((d.steps actions).2.steps more).2) := by
  induction actions generalizing d with
  | nil => rfl
  | cons a actions ih => rw [List.cons_append, steps_cons, steps_cons, ih, List.append_assoc]

/-- **When all timers have run out, no call is left.** -/
theorem Sound.timers_settle (h : d.Sound) (hrunning : d.stopped = false) :
    d.settle.2.timers = [] := by
  suffices hall : ∀ (timers : List Timer) (d : Debouncer), d.Sound → d.stopped = false →
      d.timers = timers →
      (d.steps (timers.flatMap fun t => [.expire t.id, .enter t.id, .begin t.id])).2.timers = [] from
    hall d.timers d h hrunning rfl
  intro timers
  induction timers with
  | nil => exact fun d _ _ htimers => htimers
  | cons t timers ih =>
    intro d h hrunning htimers
    have hsplit : d.timers = [] ++ t :: timers := htimers
    obtain ⟨current, hfinish⟩ := h.steps_finish hsplit hrunning
    have hnext := h.steps [.expire t.id, .enter t.id, .begin t.id]
    rw [hfinish] at hnext
    rw [List.flatMap_cons, steps_append, hfinish]
    exact ih _ hnext hrunning rfl

/-! ## After a stop -/

/-- After a stop a trigger does nothing. -/
theorem trigger_of_stopped (h : d.stopped = true) (key : Bytes) : d.trigger key = d := by
  rw [trigger, if_pos h]

theorem handle_of_stopped (h : d.stopped = true) (extensions : List Bytes) (e : FileEvent) :
    d.handle extensions e = d := by
  rw [handle, trigger_of_stopped h, ite_self]

end Debouncer

namespace Session

variable {c : Checker} {extensions : List Bytes} {t : FileTree}

/-- Every one of these names has had its check: the handler was told once of each that is not
ignored and of no other, and each time what a check of the file gave then. -/
structure Answered (c : Checker) (names : List Bytes) (s : Session) : Prop where
  once : ((s.calls.filter (·.outcome?.isSome)).map Call.name).Perm
    (names.filter fun name => !c.isIgnored name)
  told : s.checks.outcomes = s.calls.filterMap Call.outcome?
  faithful : ∀ k ∈ s.calls, k.Faithful c

/-- Where the calls are of these names, each has had its check. -/
theorem Kept.answered {s : Session} {names : List Bytes} (h : s.Kept c)
    (hnames : (s.calls.map Call.name).Perm names) : s.Answered c names := by
  have hfaithful : ∀ k ∈ s.calls, k.Faithful c := by
    intro k hk
    obtain ⟨records, hchecker⟩ := h.calls k hk
    exact Call.faithful hchecker
  have hfilter : s.calls.filter (·.outcome?.isSome) =
      s.calls.filter ((fun name => !c.isIgnored name) ∘ Call.name) := by
    refine List.filter_congr fun k hk => ?_
    have hignored := (hfaithful k hk).ignored
    rcases houtcome : k.outcome? with _ | outcome
    · simp [hignored.1 houtcome]
    · have hno : c.isIgnored k.name = false := by
        refine Bool.eq_false_iff.2 fun hyes => ?_
        exact Option.some_ne_none outcome (houtcome.symm.trans (hignored.2 hyes))
      simp [hno]
  refine ⟨?_, h.told, hfaithful⟩
  rw [hfilter, ← List.filter_map]
  exact hnames.filter _

theorem filterMap_action?_changes {changes : List Occurrence}
    (h : ∀ o ∈ changes, o.isChange = true) :
    changes.filterMap (·.action? extensions) =
      (changes.filterMap (·.asked? extensions)).map .trigger := by
  rw [List.map_filterMap]
  refine List.filterMap_congr fun o ho => ?_
  rcases o with e | tree | ⟨a, now⟩
  · rw [Occurrence.action?, Occurrence.asked?]
    split_ifs <;> rfl
  · rfl
  · exact absurd (h _ ho) Bool.false_ne_true

/-- A check is asked for by a write or a creation of a file with one of the extensions. -/
theorem mem_asked?_changes {changes : List Occurrence} {name : Bytes} :
    name ∈ changes.filterMap (·.asked? extensions) ↔
      ∃ e, .event e ∈ changes ∧ e.name = name ∧
        (.write ∈ e.operations ∨ .create ∈ e.operations) ∧ Path.extension name ∈ extensions := by
  have hrelevant : ∀ e : FileEvent, e.relevant extensions = true ↔
      (.write ∈ e.operations ∨ .create ∈ e.operations) ∧ Path.extension e.name ∈ extensions := by
    simp [FileEvent.relevant]
  rw [List.mem_filterMap]
  constructor
  · rintro ⟨e | tree | ⟨a, now⟩, ho, hasked⟩
    · rw [Occurrence.asked?] at hasked
      split_ifs at hasked with he
      obtain rfl := Option.some.inj hasked
      exact ⟨e, ho, rfl, (hrelevant e).1 he⟩
    · exact absurd hasked nofun
    · exact absurd hasked nofun
  · rintro ⟨e, he, rfl, hwanted⟩
    exact ⟨.event e, he, if_pos ((hrelevant e).2 hwanted)⟩

theorem inner_of_isExpiry (extensions : List Bytes) {expiries : List Occurrence}
    (h : ∀ o ∈ expiries, o.isExpiry = true) :
    ∀ a ∈ expiries.filterMap (·.action? extensions), a.inner = true := by
  intro a ha
  obtain ⟨o, ho, hoa⟩ := List.mem_filterMap.1 ha
  rcases o with e | tree | ⟨b, now⟩
  · exact absurd (h _ ho) Bool.false_ne_true
  · exact absurd hoa nofun
  · obtain rfl := Option.some.inj hoa
    exact h _ ho

/-- The debouncer of a session is sound, whatever has happened. -/
theorem sound_run (extensions : List Bytes) (c : Checker) (t : FileTree)
    (occurrences : List Occurrence) :
    ((start extensions c t).run occurrences).debouncer.Sound := by
  rw [(run_debouncer _ occurrences).1]
  exact Debouncer.sound_empty.steps _

/-- Where changes alone lead: to timers that all run, and to no call. -/
theorem run_changes (extensions : List Bytes) (c : Checker) (t : FileTree)
    {changes : List Occurrence} (h : ∀ o ∈ changes, o.isChange = true) :
    let s := (start extensions c t).run changes
    s.debouncer.stopped = false ∧ (∀ timer ∈ s.debouncer.timers, timer.phase = .armed) ∧
      s.calls.map Call.name = [] ∧
      ∀ name, name ∈ s.debouncer.pending ↔ name ∈ changes.filterMap (·.asked? extensions) := by
  intro s
  obtain ⟨hdebouncer, hcalls⟩ := run_debouncer (start extensions c t) changes
  rw [filterMap_action?_changes h] at hdebouncer hcalls
  obtain ⟨hnone, hrunning, harmed, hpending⟩ :=
    Debouncer.sound_empty.steps_triggers rfl nofun (changes.filterMap (·.asked? extensions))
  refine ⟨hdebouncer ▸ hrunning, hdebouncer ▸ harmed, hcalls.trans hnone, fun name => ?_⟩
  have hname := (hpending name).trans (or_iff_left List.not_mem_nil)
  exact hdebouncer ▸ hname

/-- Changes alone leave what was checked as it is. -/
theorem checks_run_changes {changes : List Occurrence} (h : ∀ o ∈ changes, o.isChange = true)
    (s : Session) :
    (s.run changes).checks = { s.checks with tree := (s.run changes).checks.tree } := by
  induction changes generalizing s with
  | nil => rfl
  | cons o changes ih =>
    obtain ⟨ho, hrest⟩ := List.forall_mem_cons.1 h
    rw [run_cons, ih hrest]
    rcases o with e | tree | ⟨a, now⟩
    · rfl
    · rfl
    · exact absurd ho Bool.false_ne_true

theorem running_run_expiries {s : Session} (h : s.debouncer.Sound)
    (hrunning : s.debouncer.stopped = false) {expiries : List Occurrence}
    (hexpiries : ∀ o ∈ expiries, o.isExpiry = true) :
    (s.run expiries).debouncer.stopped = false := by
  rw [(run_debouncer s expiries).1, h.stopped_steps, hrunning, Bool.false_or]
  refine Bool.eq_false_iff.2 fun hstop => ?_
  exact absurd (inner_of_isExpiry _ hexpiries .stop (by simpa using hstop)) Bool.false_ne_true

/-- All timers run out in turn, at one time. -/
def settling (s : Session) (now : Int) : List Occurrence :=
  (s.debouncer.timers.flatMap fun t => [.expire t.id, .enter t.id, .begin t.id]).map (.step · now)

theorem isExpiry_of_settling {s : Session} {now : Int} :
    ∀ o ∈ s.settling now, o.isExpiry = true := by
  intro o ho
  obtain ⟨a, ha, rfl⟩ := List.mem_map.1 ho
  obtain ⟨t, -, ha⟩ := List.mem_flatMap.1 ha
  simp only [List.mem_cons, List.not_mem_nil, or_false] at ha
  rcases ha with rfl | rfl | rfl <;> rfl

/-- When all timers have run out in turn, there are none. -/
theorem timers_run_settling {s : Session} (h : s.debouncer.Sound)
    (hrunning : s.debouncer.stopped = false) (now : Int) :
    (s.run (s.settling now)).debouncer.timers = [] := by
  rw [settling, (s.run_steps _ now).1]
  exact h.timers_settle hrunning

/-- The calls at the end of the timers' way are the pending names. -/
theorem calls_perm_pending {s : Session} (h : s.debouncer.Sound)
    (hrunning : s.debouncer.stopped = false)
    (harmed : ∀ timer ∈ s.debouncer.timers, timer.phase = .armed)
    (hcalls : s.calls.map Call.name = []) {expiries : List Occurrence}
    (hexpiries : ∀ o ∈ expiries, o.isExpiry = true)
    (hdone : (s.run expiries).debouncer.timers = []) :
    ((s.run expiries).calls.map Call.name).Perm s.debouncer.pending := by
  obtain ⟨hdebouncer, hnames⟩ := run_debouncer s expiries
  have hperm := h.due_perm_steps (.inr (inner_of_isExpiry s.extensions hexpiries))
  rw [← hdebouncer, Debouncer.due, hdone, List.filter_nil, List.map_nil, List.append_nil,
    Debouncer.due_of_running hrunning] at hperm
  rw [hnames, hcalls, List.nil_append]
  exact hperm.trans (h.keys_perm_pending harmed)

/-- **Events come to one check per file, on what the file holds by then.**  While events and changes
of files mix in any order and no timer runs out, the pending names are those of the events that call
for a check, each once.  However the timers come further from there, and however files change
meanwhile, their way can be gone to the end, and at the end every pending name has had its check; a
recheck by the watcher is one such way.  After a stop nothing is pending, and an event does nothing
any more, whatever else happens before or after. -/
theorem events_coalesce (extensions : List Bytes) (c : Checker) (t : FileTree)
    {changes : List Occurrence} (hchanges : ∀ o ∈ changes, o.isChange = true) :
    let s := (start extensions c t).run changes
    (s.debouncer.pending.Nodup ∧ ∀ name, name ∈ s.debouncer.pending ↔
        ∃ e, .event e ∈ changes ∧ e.name = name ∧
          (.write ∈ e.operations ∨ .create ∈ e.operations) ∧ Path.extension name ∈ extensions) ∧
      (∀ expiries : List Occurrence, (∀ o ∈ expiries, o.isExpiry = true) →
        (∃ rest : List Occurrence, (∀ o ∈ rest, o.isExpiry = true) ∧
          (s.run (expiries ++ rest)).debouncer.timers = []) ∧
        ((s.run expiries).debouncer.timers = [] →
          (s.run expiries).Answered c s.debouncer.pending)) ∧
      (∀ now, ∃ expiries : List Occurrence, (∀ o ∈ expiries, o.isExpiry = true) ∧
        (s.run expiries).debouncer.timers = [] ∧
        (s.run expiries).debouncer = (s.debouncer.recheck c s.checks.tree now).2 ∧
        (s.run expiries).checks = (s.debouncer.recheck c s.checks.tree now).1) ∧
      ∀ history later now,
        let stopped := (start extensions c t).run (history ++ .step .stop now :: later)
        stopped.debouncer.pending = [] ∧ ∀ e, stopped.next (.event e) = stopped := by
  intro s
  have hsound : s.debouncer.Sound := sound_run extensions c t changes
  obtain ⟨hrunning, harmed, hcalls, hpending⟩ := run_changes extensions c t hchanges
  refine ⟨⟨hsound.keyed, fun name => (hpending name).trans mem_asked?_changes⟩, ?_, ?_, ?_⟩
  · intro expiries hexpiries
    refine ⟨⟨(s.run expiries).settling 0, isExpiry_of_settling, ?_⟩, fun hdone => ?_⟩
    · have hlater : (s.run expiries).debouncer.Sound := by
        rw [(run_debouncer s expiries).1]
        exact hsound.steps _
      rw [run_append]
      exact timers_run_settling hlater (running_run_expiries hsound hrunning hexpiries) 0
    · have hkept := ((kept_start extensions c t).run changes).run expiries
      exact hkept.answered (calls_perm_pending hsound hrunning harmed hcalls hexpiries hdone)
  · intro now
    have hchecks : s.checks = { checker := c, tree := s.checks.tree } :=
      checks_run_changes hchanges (start extensions c t)
    obtain ⟨hdebouncer, hrun⟩ := s.run_steps
      (s.debouncer.timers.flatMap fun t => [.expire t.id, .enter t.id, .begin t.id]) now
    rw [hchecks] at hrun
    exact ⟨s.settling now, isExpiry_of_settling, timers_run_settling hsound hrunning now,
      hdebouncer, hrun⟩
  · intro history later now stopped
    have hstopped : stopped.debouncer.stopped = true := by
      rw [(run_debouncer _ _).1]
      refine (Debouncer.sound_empty.stopped_steps _).trans ?_
      rw [List.filterMap_append]
      simp [Occurrence.action?]
    have hsound : stopped.debouncer.Sound := sound_run extensions c t _
    refine ⟨by rw [Debouncer.pending, hsound.emptied hstopped]; rfl, fun e => ?_⟩
    rw [next, Debouncer.handle_of_stopped hstopped]

/-- A file that is created and saved again, beside an ignored one, a removed one and one with another
extension. -/
theorem saves_coalesce :
    let c : Checker := { options := .standard, ignoredPaths := ["b.js"] }
    let changes : List Occurrence :=
      [.event ⟨"a.js", [.create]⟩, .event ⟨"b.js", [.write, .chmod]⟩,
        .edit (FileTree.empty.set ["work", "a.js"] (.file "\x7d")), .event ⟨"a.js", [.write]⟩,
        .event ⟨"c.js", [.remove]⟩, .event ⟨"d.txt", [.write]⟩]
    let s := (start [".js"] c .empty).run changes
    (∀ o ∈ changes, o.isChange = true) ∧ s.debouncer.pending = (["b.js", "a.js"] : List Bytes) ∧
      ∃ expiries : List Occurrence, (∀ o ∈ expiries, o.isExpiry = true) ∧
        (s.run expiries).debouncer.timers = [] ∧ (s.run expiries).Answered c ["b.js", "a.js"] := by
  intro c changes s
  have hchanges : ∀ o ∈ changes, o.isChange = true := by simp [changes, Occurrence.isChange]
  have hpending : s.debouncer.pending = (["b.js", "a.js"] : List Bytes) := by decide
  obtain ⟨-, hexpiries, -⟩ := events_coalesce [".js"] c .empty hchanges
  obtain ⟨⟨rest, hrest, hdone⟩, -⟩ := hexpiries [] nofun
  refine ⟨hchanges, hpending, rest, hrest, hdone, ?_⟩
  have hanswered := (hexpiries rest hrest).2 hdone
  rwa [← hpending]

end Session

end BraceBalance
