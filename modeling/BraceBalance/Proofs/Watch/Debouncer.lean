import BraceBalance.Proofs.Lookup
import BraceBalance.Watch.Debouncer
import Mathlib.Data.List.Nodup
import Mathlib.Data.List.Perm.Basic
import Mathlib.Tactic.SplitIfs

/-!
# Proofs/Watch/Debouncer — what one step does, and what every step keeps

    trigger ──▸ armed ──expire──▸ expired ──enter──▸ admitted ──begin──▸ its call

A timer walks this line, and its key may be triggered at any point of it; so an old callback and a
newer timer of one key can be on their way together.  `Happens` says once what a step can do, and
`Sound` is what every step keeps: a timer that runs is the one stored for its key, and a timer that
is stored was not let in yet.  `Happens.due_perm` is the account of calls: what is called and what
is still due make up what was due.
-/

namespace BraceBalance

namespace Debouncer

variable {d e : Debouncer} {t u : Timer} {key : Bytes} {before after : List Timer}

/-! ## The invariant -/

/-- What holds of a debouncer however its steps come. -/
structure Sound (d : Debouncer) : Prop where
  /-- Timers have numbers of their own. -/
  distinct : (d.timers.map Timer.id).Nodup
  numbered : ∀ t ∈ d.timers, t.id < d.fresh
  /-- A key has one timer stored. -/
  keyed : (d.current.map Prod.fst).Nodup
  /-- A timer that runs is stored under its key. -/
  stored : ∀ t ∈ d.timers, t.phase = .armed → (t.key, t.id) ∈ d.current
  /-- A timer that is stored was not let in. -/
  waiting : ∀ entry ∈ d.current, ∃ t ∈ d.timers, (t.key, t.id) = entry ∧ t.phase ≠ .admitted
  /-- Nothing is stored after a stop. -/
  emptied : d.stopped = true → d.current = []

theorem sound_empty : ({} : Debouncer).Sound :=
  ⟨.nil, nofun, .nil, nofun, nofun, nofun⟩

/-- A timer that is found is there, and has the number it was found by. -/
theorem mem_of_timer? {id : Nat} (h : d.timer? id = some t) : t ∈ d.timers ∧ t.id = id := by
  rw [timer?] at h
  have hid := List.find?_some h
  exact ⟨List.mem_of_find?_eq_some h, by simpa using hid⟩

namespace Sound

/-- Two timers of one number are one. -/
theorem eq_of_id_eq (h : d.Sound) (ht : t ∈ d.timers) (hu : u ∈ d.timers) (hid : t.id = u.id) :
    t = u :=
  List.inj_on_of_nodup_map h.distinct ht hu hid

/-- The number of a timer finds it. -/
theorem timer?_eq (h : d.Sound) (ht : t ∈ d.timers) : d.timer? t.id = some t := by
  have hsome : (d.timer? t.id).isSome := List.find?_isSome.2 ⟨t, ht, beq_self_eq_true _⟩
  obtain ⟨u, hu⟩ := Option.isSome_iff_exists.1 hsome
  obtain ⟨hmem, hid⟩ := mem_of_timer? hu
  rw [hu, h.eq_of_id_eq hmem ht hid]

/-- **The timer that a trigger puts off is the one that runs for its key.** -/
theorem armed?_eq_some_iff (h : d.Sound) :
    d.armed? key = some t ↔ t ∈ d.timers ∧ t.key = key ∧ t.phase = .armed := by
  constructor
  · intro harmed
    obtain ⟨id, hid, harmed⟩ := Option.bind_eq_some_iff.1 harmed
    obtain ⟨u, hu, harmed⟩ := Option.bind_eq_some_iff.1 harmed
    obtain ⟨v, hv, hentry, -⟩ := h.waiting (key, id) (mem_of_lookup hid)
    obtain ⟨rfl, rfl⟩ := Prod.mk.inj hentry
    obtain rfl : v = u := Option.some.inj ((h.timer?_eq hv).symm.trans hu)
    split_ifs at harmed with hphase
    obtain rfl := Option.some.inj harmed
    exact ⟨hv, rfl, hphase⟩
  · rintro ⟨ht, rfl, hphase⟩
    have hlookup := (lookup_eq_some_iff_mem h.keyed).2 (h.stored t ht hphase)
    exact Option.bind_eq_some_iff.2
      ⟨t.id, hlookup, Option.bind_eq_some_iff.2 ⟨t, h.timer?_eq ht, if_pos hphase⟩⟩

/-- A key has at most one timer that runs. -/
theorem eq_of_armed (h : d.Sound) (ht : t ∈ d.timers) (hu : u ∈ d.timers)
    (hkey : t.key = u.key) (htarmed : t.phase = .armed) (huarmed : u.phase = .armed) : t = u := by
  have htsome := h.armed?_eq_some_iff.2 ⟨ht, rfl, htarmed⟩
  have husome := h.armed?_eq_some_iff.2 ⟨hu, hkey.symm, huarmed⟩
  exact Option.some.inj (htsome.symm.trans husome)

/-- After a stop no timer runs. -/
theorem not_armed_of_stopped (h : d.Sound) (hstopped : d.stopped = true) (ht : t ∈ d.timers) :
    t.phase ≠ .armed := by
  intro hphase
  have hmem := h.stored t ht hphase
  rw [h.emptied hstopped] at hmem
  exact List.not_mem_nil hmem

/-! ## A timer between the others

The timers are split at the one a step is about, and what the step does is told by how they are
split. -/

theorem id_ne_of_split (h : d.Sound) (hsplit : d.timers = before ++ t :: after) :
    ∀ u ∈ before ++ after, u.id ≠ t.id := by
  have hdistinct := h.distinct
  rw [hsplit, List.map_append, List.map_cons, List.nodup_middle, List.nodup_cons,
    ← List.map_append] at hdistinct
  exact fun u hu hid => hdistinct.1 (hid ▸ List.mem_map_of_mem hu)

theorem without_eq (h : d.Sound) (hsplit : d.timers = before ++ t :: after) :
    d.without t.id = before ++ after := by
  rw [without, hsplit, List.filter_append, List.filter_cons_of_neg (by simp), ← List.filter_append]
  exact List.filter_eq_self.2 fun u hu => by simpa using h.id_ne_of_split hsplit u hu

theorem inPhase_eq (h : d.Sound) (hsplit : d.timers = before ++ t :: after) (phase : Phase) :
    d.inPhase t.id phase = before ++ { t with phase } :: after := by
  have hsame : ∀ u ∈ before ++ after, (if u.id = t.id then { u with phase } else u) = u :=
    fun u hu => if_neg (h.id_ne_of_split hsplit u hu)
  have hbefore := List.map_congr_left fun u hu => hsame u (List.mem_append_left _ hu)
  have hafter := List.map_congr_left fun u hu => hsame u (List.mem_append_right _ hu)
  rw [inPhase, hsplit, List.map_append, List.map_cons, if_pos rfl, hbefore, hafter, List.map_id',
    List.map_id']

/-- A timer that runs, runs out. -/
theorem expire_eq (h : d.Sound) (hsplit : d.timers = before ++ t :: after)
    (hphase : t.phase = .armed) :
    d.expire t.id = { d with timers := before ++ { t with phase := .expired } :: after } := by
  rw [expire, h.timer?_eq (hsplit ▸ by simp)]
  dsimp only
  rw [if_pos hphase, h.inPhase_eq hsplit]

/-- A timer that does not run cannot run out. -/
theorem expire_eq_self (h : d.Sound) (ht : t ∈ d.timers) (hphase : t.phase ≠ .armed) :
    d.expire t.id = d := by
  rw [expire, h.timer?_eq ht]
  exact if_neg hphase

/-- A callback that waits is let in, and its timer is no longer stored. -/
theorem enter_eq (h : d.Sound) (hsplit : d.timers = before ++ t :: after)
    (hphase : t.phase = .expired) (hrunning : d.stopped = false) :
    d.enter t.id =
      { d with
        current := d.current.filter (· ≠ (t.key, t.id))
        timers := before ++ { t with phase := .admitted } :: after } := by
  rw [enter, h.timer?_eq (hsplit ▸ by simp)]
  dsimp only
  rw [if_pos hphase, hrunning, if_neg Bool.false_ne_true, h.inPhase_eq hsplit]

/-- A callback that comes after a stop is turned away; nothing is stored then. -/
theorem enter_eq_of_stopped (h : d.Sound) (hsplit : d.timers = before ++ t :: after)
    (hphase : t.phase = .expired) (hstopped : d.stopped = true) :
    d.enter t.id = { d with timers := before ++ after } := by
  have hcurrent : d.current.filter (· ≠ (t.key, t.id)) = d.current := by
    rw [h.emptied hstopped]
    rfl
  rw [enter, h.timer?_eq (hsplit ▸ by simp)]
  dsimp only
  rw [if_pos hphase, if_pos hstopped, hcurrent, h.without_eq hsplit]

/-- Nothing else is let in. -/
theorem enter_eq_self (h : d.Sound) (ht : t ∈ d.timers) (hphase : t.phase ≠ .expired) :
    d.enter t.id = d := by
  rw [enter, h.timer?_eq ht]
  exact if_neg hphase

/-- The call of a timer that was let in begins, and the timer is gone. -/
theorem begin_eq (h : d.Sound) (hsplit : d.timers = before ++ t :: after)
    (hphase : t.phase = .admitted) :
    d.begin t.id = (some t.key, { d with timers := before ++ after }) := by
  rw [begin, h.timer?_eq (hsplit ▸ by simp)]
  dsimp only
  rw [if_pos hphase, h.without_eq hsplit]

/-- A stop takes away the timers that run, since all of these are stored. -/
theorem stop_eq (h : d.Sound) : d.stop =
    { d with current := [], timers := d.timers.filter (·.phase ≠ .armed), stopped := true } := by
  rw [stop]
  congr 1
  refine List.filter_congr fun t ht => ?_
  by_cases hphase : t.phase = .armed
  · simp [hphase, h.stored t ht hphase]
  · simp [hphase]

end Sound

/-! ## What a step can do

Steps that come too early, too late or for a timer that is not there do nothing; the others are told
once, and all that follows is by these cases. -/

/-- A step of a debouncer, the key whose call it begins, and what it leaves.  Where a timer has a
part in it, that timer stands between the others. -/
inductive Happens (d : Debouncer) : Action → Option Bytes → Debouncer → Prop
  | nothing {a : Action} (onward : a ≠ .stop) : Happens d a none d
  | putOff {t : Timer} {before after : List Timer} (split : d.timers = before ++ t :: after)
      (armed : t.phase = .armed) (running : d.stopped = false) :
      Happens d (.trigger t.key) none { d with timers := before ++ after ++ [t] }
  | arm {key : Bytes} (idle : ∀ t ∈ d.timers, t.key = key → t.phase ≠ .armed)
      (running : d.stopped = false) :
      Happens d (.trigger key) none
        { d with
          current := (key, d.fresh) :: d.current.filter (·.1 ≠ key)
          timers := d.timers ++ [⟨d.fresh, key, .armed⟩]
          fresh := d.fresh + 1 }
  | expire {t : Timer} {before after : List Timer} (split : d.timers = before ++ t :: after)
      (armed : t.phase = .armed) :
      Happens d (.expire t.id) none
        { d with timers := before ++ { t with phase := .expired } :: after }
  | letIn {t : Timer} {before after : List Timer} (split : d.timers = before ++ t :: after)
      (expired : t.phase = .expired) (running : d.stopped = false) :
      Happens d (.enter t.id) none
        { d with
          current := d.current.filter (· ≠ (t.key, t.id))
          timers := before ++ { t with phase := .admitted } :: after }
  | dismiss {t : Timer} {before after : List Timer} (split : d.timers = before ++ t :: after)
      (expired : t.phase = .expired) (stopped : d.stopped = true) :
      Happens d (.enter t.id) none { d with timers := before ++ after }
  | begin {t : Timer} {before after : List Timer} (split : d.timers = before ++ t :: after)
      (admitted : t.phase = .admitted) :
      Happens d (.begin t.id) (some t.key) { d with timers := before ++ after }
  | stop :
      Happens d .stop none
        { d with current := [], timers := d.timers.filter (·.phase ≠ .armed), stopped := true }

namespace Sound

/-- A trigger puts off the timer that runs for its key, arms one if none does, and does nothing
after a stop. -/
theorem happens_trigger (h : d.Sound) (key : Bytes) :
    Happens d (.trigger key) none (d.trigger key) := by
  rw [trigger]
  split_ifs with hstopped
  · exact .nothing nofun
  have hrunning : d.stopped = false := Bool.eq_false_iff.2 hstopped
  rcases harmed : d.armed? key with _ | t
  · refine .arm (fun t ht hkey hphase => ?_) hrunning
    have hsome := h.armed?_eq_some_iff.2 ⟨ht, hkey, hphase⟩
    exact Option.some_ne_none t (hsome.symm.trans harmed)
  · obtain ⟨ht, rfl, hphase⟩ := h.armed?_eq_some_iff.1 harmed
    obtain ⟨before, after, hsplit⟩ := List.append_of_mem ht
    dsimp only
    rw [h.without_eq hsplit]
    exact .putOff hsplit hphase hrunning

theorem happens_expire (h : d.Sound) (id : Nat) : Happens d (.expire id) none (d.expire id) := by
  rcases htimer : d.timer? id with _ | t
  · rw [expire, htimer]
    exact .nothing nofun
  obtain ⟨ht, rfl⟩ := mem_of_timer? htimer
  obtain ⟨before, after, hsplit⟩ := List.append_of_mem ht
  by_cases hphase : t.phase = .armed
  · rw [h.expire_eq hsplit hphase]
    exact .expire hsplit hphase
  · rw [h.expire_eq_self ht hphase]
    exact .nothing nofun

/-- A callback that waits is let in or, after a stop, turned away. -/
theorem happens_enter (h : d.Sound) (id : Nat) : Happens d (.enter id) none (d.enter id) := by
  rcases htimer : d.timer? id with _ | t
  · rw [enter, htimer]
    exact .nothing nofun
  obtain ⟨ht, rfl⟩ := mem_of_timer? htimer
  obtain ⟨before, after, hsplit⟩ := List.append_of_mem ht
  by_cases hphase : t.phase = .expired
  · by_cases hstopped : d.stopped = true
    · rw [h.enter_eq_of_stopped hsplit hphase hstopped]
      exact .dismiss hsplit hphase hstopped
    · have hrunning : d.stopped = false := Bool.eq_false_iff.2 hstopped
      rw [h.enter_eq hsplit hphase hrunning]
      exact .letIn hsplit hphase hrunning
  · rw [h.enter_eq_self ht hphase]
    exact .nothing nofun

/-- A call begins only for a timer that was let in. -/
theorem happens_begin (h : d.Sound) (id : Nat) :
    Happens d (.begin id) (d.begin id).1 (d.begin id).2 := by
  rcases htimer : d.timer? id with _ | t
  · rw [begin, htimer]
    exact .nothing nofun
  obtain ⟨ht, rfl⟩ := mem_of_timer? htimer
  obtain ⟨before, after, hsplit⟩ := List.append_of_mem ht
  by_cases hphase : t.phase = .admitted
  · rw [h.begin_eq hsplit hphase]
    exact .begin hsplit hphase
  · rw [begin, htimer]
    dsimp only
    rw [if_neg hphase]
    exact .nothing nofun

/-- **A step is one of the things that can happen.** -/
theorem happens (h : d.Sound) (a : Action) : Happens d a (d.step a).1 (d.step a).2 := by
  rcases a with key | id | id | id | _
  · exact h.happens_trigger key
  · exact h.happens_expire id
  · exact h.happens_enter id
  · exact h.happens_begin id
  · rw [step, h.stop_eq]
    exact .stop

/-! ## What a step keeps

Each of the changes that a step may make to the timers keeps the invariant, whatever step makes
it. -/

/-- A timer that is put off goes behind the others, and stays what it was. -/
theorem putOff (h : d.Sound) (hsplit : d.timers = before ++ t :: after) :
    { d with timers := before ++ after ++ [t] }.Sound := by
  have hperm : (before ++ after ++ [t]).Perm d.timers := by
    rw [hsplit]
    exact (List.perm_append_singleton _ _).trans List.perm_middle.symm
  have hmem : ∀ {u}, u ∈ before ++ after ++ [t] ↔ u ∈ d.timers := hperm.mem_iff
  refine ⟨(hperm.map _).nodup_iff.2 h.distinct, fun u hu => h.numbered u (hmem.1 hu), h.keyed,
    fun u hu => h.stored u (hmem.1 hu), fun entry hentry => ?_, h.emptied⟩
  obtain ⟨u, hu, hrest⟩ := h.waiting entry hentry
  exact ⟨u, hmem.2 hu, hrest⟩

/-- A timer that is armed takes the place of an older one of its key, if that was stored. -/
theorem arm (h : d.Sound) (hidle : ∀ t ∈ d.timers, t.key = key → t.phase ≠ .armed)
    (hrunning : d.stopped = false) :
    ({ d with
      current := (key, d.fresh) :: d.current.filter (·.1 ≠ key)
      timers := d.timers ++ [⟨d.fresh, key, .armed⟩]
      fresh := d.fresh + 1 } : Debouncer).Sound := by
  refine ⟨?_, ?_, ?_, ?_, ?_, ?_⟩
  · -- The new number is above all others.
    have hnew : d.fresh ∉ d.timers.map Timer.id := by
      intro hmem
      obtain ⟨u, hu, hid⟩ := List.mem_map.1 hmem
      exact absurd hid (Nat.ne_of_lt (h.numbered u hu))
    rw [List.map_append]
    exact h.distinct.append (List.nodup_singleton _) (by simpa using hnew)
  · intro u hu
    rcases List.mem_append.1 hu with hu | hu
    · exact Nat.lt_succ_of_lt (h.numbered u hu)
    · obtain rfl := List.mem_singleton.1 hu
      exact Nat.lt_succ_self _
  · refine List.nodup_cons.2 ⟨fun hmem => ?_, h.keyed.sublist (List.filter_sublist.map _)⟩
    obtain ⟨entry, hentry, hkey⟩ := List.mem_map.1 hmem
    exact absurd hkey (of_decide_eq_true (List.mem_filter.1 hentry).2)
  · intro u hu hphase
    rcases List.mem_append.1 hu with hu | hu
    · have hkey : u.key ≠ key := fun hkey => hidle u hu hkey hphase
      exact List.mem_cons_of_mem _ (List.mem_filter.2 ⟨h.stored u hu hphase, decide_eq_true hkey⟩)
    · obtain rfl := List.mem_singleton.1 hu
      exact List.mem_cons_self
  · intro entry hentry
    rcases List.mem_cons.1 hentry with rfl | hentry
    · exact ⟨⟨d.fresh, key, .armed⟩, List.mem_append_right _ List.mem_cons_self, rfl, nofun⟩
    · obtain ⟨u, hu, hrest⟩ := h.waiting entry (List.mem_filter.1 hentry).1
      exact ⟨u, List.mem_append_left _ hu, hrest⟩
  · intro hstopped
    exact absurd (hrunning.symm.trans hstopped) Bool.false_ne_true

/-- A timer goes on to another phase, and perhaps is no longer stored. -/
theorem rephase (h : d.Sound) (hsplit : d.timers = before ++ t :: after)
    (phase : Phase) (hphase : phase ≠ .armed) {current : List (Bytes × Nat)}
    (hsub : current.Sublist d.current)
    (hrest : ∀ u ∈ before ++ after, (u.key, u.id) ∈ d.current → (u.key, u.id) ∈ current)
    (hleft : (t.key, t.id) ∈ current → phase ≠ .admitted) :
    ({ d with current, timers := before ++ { t with phase } :: after } : Debouncer).Sound := by
  have hmem : ∀ {u}, u ∈ before ++ { t with phase } :: after ↔
      u = { t with phase } ∨ u ∈ before ++ after := by simp [or_left_comm]
  have hold : ∀ {u}, u ∈ d.timers ↔ u = t ∨ u ∈ before ++ after := by simp [hsplit, or_left_comm]
  refine ⟨?_, ?_, h.keyed.sublist (hsub.map _), ?_, ?_, ?_⟩
  · simpa [hsplit] using h.distinct
  · intro u hu
    rcases hmem.1 hu with rfl | hu
    · exact h.numbered t (hold.2 (.inl rfl))
    · exact h.numbered u (hold.2 (.inr hu))
  · intro u hu harmed
    rcases hmem.1 hu with rfl | hu
    · exact absurd harmed hphase
    · exact hrest u hu (h.stored u (hold.2 (.inr hu)) harmed)
  · intro entry hentry
    obtain ⟨u, hu, rfl, hwaits⟩ := h.waiting entry (hsub.subset hentry)
    rcases hold.1 hu with rfl | hu
    · exact ⟨_, hmem.2 (.inl rfl), rfl, hleft hentry⟩
    · exact ⟨u, hmem.2 (.inr hu), rfl, hwaits⟩
  · intro hstopped
    exact List.sublist_nil.1 (h.emptied hstopped ▸ hsub)

/-- A timer that is not stored goes away. -/
theorem remove (h : d.Sound) (hsplit : d.timers = before ++ t :: after)
    (hfree : (t.key, t.id) ∉ d.current) : { d with timers := before ++ after }.Sound := by
  have hold : ∀ {u}, u ∈ d.timers ↔ u = t ∨ u ∈ before ++ after := by simp [hsplit, or_left_comm]
  have hsub : (before ++ after).Sublist d.timers := by
    rw [hsplit]
    exact (List.Sublist.refl before).append (List.sublist_cons_self t after)
  refine ⟨h.distinct.sublist (hsub.map _), fun u hu => h.numbered u (hsub.subset hu), h.keyed,
    fun u hu => h.stored u (hsub.subset hu), fun entry hentry => ?_, h.emptied⟩
  obtain ⟨u, hu, rfl, hwaits⟩ := h.waiting entry hentry
  rcases hold.1 hu with rfl | hu
  · exact absurd hentry hfree
  · exact ⟨u, hu, rfl, hwaits⟩

/-- Of what is left by a stop nothing runs and nothing is stored. -/
theorem halt (h : d.Sound) :
    ({ d with
      current := [], timers := d.timers.filter (·.phase ≠ .armed), stopped := true } :
        Debouncer).Sound := by
  have hsub : (d.timers.filter (·.phase ≠ .armed)).Sublist d.timers := List.filter_sublist
  refine ⟨h.distinct.sublist (hsub.map _), fun u hu => h.numbered u (hsub.subset hu), .nil,
    fun u hu hphase => ?_, nofun, fun _ => rfl⟩
  exact absurd hphase (of_decide_eq_true (List.mem_filter.1 hu).2)

end Sound

/-- **Whatever happens leaves a sound debouncer.** -/
theorem Happens.sound {a : Action} {called : Option Bytes} (h : Happens d a called e)
    (hs : d.Sound) : e.Sound := by
  cases h with
  | nothing => exact hs
  | putOff split => exact hs.putOff split
  | arm idle running => exact hs.arm idle running
  | expire split =>
    exact hs.rephase split .expired nofun (List.Sublist.refl _) (fun _ _ hmem => hmem) fun _ => nofun
  | letIn split =>
    refine hs.rephase split .admitted nofun List.filter_sublist (fun u hu hmem => ?_) fun hmem => ?_
    · refine List.mem_filter.2 ⟨hmem, decide_eq_true fun hentry => ?_⟩
      exact hs.id_ne_of_split split u hu (Prod.mk.inj hentry).2
    · exact absurd rfl (of_decide_eq_true (List.mem_filter.1 hmem).2)
  | dismiss split _ stopped => exact hs.remove split (hs.emptied stopped ▸ List.not_mem_nil)
  | @begin t _ _ split admitted =>
    refine hs.remove split fun hmem => ?_
    obtain ⟨u, hu, hentry, hwaits⟩ := hs.waiting _ hmem
    obtain rfl := hs.eq_of_id_eq hu (split ▸ by simp) (Prod.mk.inj hentry).2
    exact hwaits admitted
  | stop => exact hs.halt

theorem Sound.stop (h : d.Sound) : d.stop.Sound := (h.happens .stop).sound h

/-- A stop is for good. -/
theorem Happens.stopped_eq {a : Action} {called : Option Bytes} (h : Happens d a called e) :
    e.stopped = (d.stopped || a == .stop) := by
  cases h with
  | nothing onward => simp [onward]
  | _ => simp

theorem Happens.stopped {a : Action} {called : Option Bytes} (h : Happens d a called e)
    (hstopped : d.stopped = true) : e.stopped = true := by
  rw [h.stopped_eq, hstopped, Bool.true_or]

/-- Nothing but a stop stops a debouncer. -/
theorem Happens.running {a : Action} {called : Option Bytes} (h : Happens d a called e)
    (hrunning : d.stopped = false) (ha : a ≠ .stop) : e.stopped = false := by
  rw [h.stopped_eq, hrunning, Bool.false_or]
  exact beq_false_of_ne ha

/-! ## The calls still due -/

/-- The keys whose call is still to come: those of all timers, but after a stop only of the timers
that were let in. -/
def due (d : Debouncer) : List Bytes :=
  (d.timers.filter fun t => !d.stopped || t.phase == .admitted).map Timer.key

/-- Until a stop the call of every timer is due. -/
theorem due_of_running (h : d.stopped = false) : d.due = d.timers.map Timer.key := by
  simp [due, h]

/-- A timer takes this step itself; triggers and stops come from outside. -/
def Action.inner : Action → Bool
  | trigger _ | stop => false
  | expire _ | enter _ | begin _ => true

/-- **What is called and what is still due make up what was due**, unless more is asked for or a
stop takes it back. -/
theorem Happens.due_perm {a : Action} {called : Option Bytes} (h : Happens d a called e)
    (hs : d.Sound) (ha : d.stopped = true ∨ a.inner = true) :
    (called.toList ++ e.due).Perm d.due := by
  cases h with
  | nothing => exact .refl _
  | putOff _ _ running => simp [running, Action.inner] at ha
  | arm _ running => simp [running, Action.inner] at ha
  | expire split armed =>
    have hrunning : d.stopped = false := Bool.eq_false_iff.2 fun hstopped =>
      hs.not_armed_of_stopped hstopped (split ▸ by simp) armed
    simp [due, hrunning, split]
  | letIn split _ running => simp [due, running, split]
  | dismiss split expired stopped => simp [due, stopped, split, expired]
  | begin split admitted =>
    simpa [due, split, admitted] using List.perm_middle.symm
  | stop =>
    have hstopped : d.stopped = true := by simpa [Action.inner] using ha
    have hkept : d.timers.filter (·.phase ≠ .armed) = d.timers := List.filter_eq_self.2
      fun t ht => decide_eq_true (hs.not_armed_of_stopped hstopped ht)
    simp only [due, hkept, hstopped]
    exact .refl _

/-! ## Runs -/

theorem steps_cons (d : Debouncer) (a : Action) (more : List Action) :
    d.steps (a :: more) =
      ((d.step a).1.toList ++ ((d.step a).2.steps more).1, ((d.step a).2.steps more).2) := rfl

/-- Any number of steps leaves a debouncer sound. -/
theorem Sound.steps (h : d.Sound) (actions : List Action) : (d.steps actions).2.Sound := by
  induction actions generalizing d with
  | nil => exact h
  | cons a more ih => exact ih ((h.happens a).sound h)

/-- A debouncer is stopped if it was, or if one of the steps is a stop. -/
theorem Sound.stopped_steps (h : d.Sound) (actions : List Action) :
    (d.steps actions).2.stopped = (d.stopped || actions.contains .stop) := by
  induction actions generalizing d with
  | nil => simp [Debouncer.steps]
  | cons a more ih =>
    have hnext := (h.happens a).sound h
    rw [steps_cons, ih hnext, (h.happens a).stopped_eq, List.contains_cons, Bool.or_assoc,
      BEq.comm]

/-- The account of calls over a run. -/
theorem Sound.due_perm_steps (h : d.Sound) {actions : List Action}
    (hactions : d.stopped = true ∨ ∀ a ∈ actions, a.inner = true) :
    ((d.steps actions).1 ++ (d.steps actions).2.due).Perm d.due := by
  induction actions generalizing d with
  | nil => exact .refl _
  | cons a more ih =>
    have hstep := h.happens a
    have hmore : (d.step a).2.stopped = true ∨ ∀ a ∈ more, a.inner = true :=
      hactions.imp hstep.stopped fun hall => (List.forall_mem_cons.1 hall).2
    have hfirst := hstep.due_perm h (hactions.imp_right fun hall => hall a List.mem_cons_self)
    rw [steps_cons, List.append_assoc]
    exact ((ih (hstep.sound h) hmore).append_left _).trans hfirst

end Debouncer

end BraceBalance
