import BraceBalance.Proofs.Watch.Debouncer

/-!
# Proofs/Watch/Delivery — no change is lost, and what a stop leaves

A key that was triggered stays due until its call begins (`Sound.mem_due_steps`), and from every
point of its way a timer can go on to its call (`Sound.steps_finish`).  A stop takes back what has
not been let in, and nothing else: whoever was let in before it still calls afterwards.
-/

namespace BraceBalance

namespace Debouncer

variable {d e : Debouncer} {t : Timer} {key : Bytes} {before after : List Timer}

/-! ## The way to the call

A timer has at most three steps before it, and none of them can be refused while the debouncer
runs. -/

namespace Sound

/-- A timer that was let in has only its call before it. -/
theorem steps_begin (h : d.Sound) (hsplit : d.timers = before ++ t :: after)
    (hphase : t.phase = .admitted) :
    d.steps [.begin t.id] = ([t.key], { d with timers := before ++ after }) := by
  rw [steps_cons, step, h.begin_eq hsplit hphase]
  rfl

/-- A timer that has run out is let in and calls. -/
theorem steps_enter (h : d.Sound) (hsplit : d.timers = before ++ t :: after)
    (hphase : t.phase ≠ .armed) (hrunning : d.stopped = false) :
    ∃ current, d.steps [.enter t.id, .begin t.id] =
      ([t.key], { d with current, timers := before ++ after }) := by
  rw [steps_cons, step]
  dsimp only
  by_cases hexpired : t.phase = .expired
  · have hentered := (h.happens (.enter t.id)).sound h
    rw [step, h.enter_eq hsplit hexpired hrunning] at hentered
    rw [h.enter_eq hsplit hexpired hrunning, hentered.steps_begin rfl rfl]
    exact ⟨_, rfl⟩
  · have hadmitted : t.phase = .admitted := by
      rcases hcase : t.phase with _ | _ | _
      · exact absurd hcase hphase
      · exact absurd hcase hexpired
      · rfl
    rw [h.enter_eq_self (hsplit ▸ by simp) hexpired, h.steps_begin hsplit hadmitted]
    exact ⟨_, rfl⟩

/-- **A timer goes on to its call from every point of its way.** -/
theorem steps_finish (h : d.Sound) (hsplit : d.timers = before ++ t :: after)
    (hrunning : d.stopped = false) :
    ∃ current, d.steps [.expire t.id, .enter t.id, .begin t.id] =
      ([t.key], { d with current, timers := before ++ after }) := by
  rw [steps_cons, step]
  dsimp only
  by_cases harmed : t.phase = .armed
  · have hexpired := (h.happens (.expire t.id)).sound h
    rw [step, h.expire_eq hsplit harmed] at hexpired
    obtain ⟨current, hsteps⟩ := hexpired.steps_enter rfl (by simp) hrunning
    rw [h.expire_eq hsplit harmed, hsteps]
    exact ⟨current, rfl⟩
  · obtain ⟨current, hsteps⟩ := h.steps_enter hsplit harmed hrunning
    rw [h.expire_eq_self (hsplit ▸ by simp) harmed, hsteps]
    exact ⟨current, rfl⟩

end Sound

/-! ## Keys that are due -/

/-- A step that is no stop calls a key that is due, or leaves it due. -/
theorem Happens.mem_due {a : Action} {called : Option Bytes} (h : Happens d a called e)
    (hs : d.Sound) (hrunning : d.stopped = false) (ha : a ≠ .stop) (hkey : key ∈ d.due) :
    key ∈ called.toList ∨ key ∈ e.due := by
  have hperm := h.due_perm hs
  have hstill := h.running hrunning ha
  cases h with
  | stop => exact absurd rfl ha
  | nothing => exact .inr hkey
  | putOff split =>
    rw [due_of_running hrunning, split] at hkey
    rw [due_of_running hstill]
    simp only [List.map_append, List.map_cons, List.mem_append, List.mem_cons] at hkey ⊢
    tauto
  | arm =>
    rw [due_of_running hrunning] at hkey
    rw [due_of_running hstill, List.map_append]
    exact .inr (List.mem_append_left _ hkey)
  | _ => exact List.mem_append.1 ((hperm (.inr rfl)).mem_iff.2 hkey)

namespace Sound

/-- A key that is due is called, or it is due still. -/
theorem mem_due_steps (h : d.Sound) (hrunning : d.stopped = false) {actions : List Action}
    (hactions : .stop ∉ actions) (hkey : key ∈ d.due) :
    key ∈ (d.steps actions).1 ∨ key ∈ (d.steps actions).2.due := by
  induction actions generalizing d with
  | nil => exact .inr hkey
  | cons a more ih =>
    obtain ⟨ha, hmore⟩ := List.ne_and_not_mem_of_not_mem_cons hactions
    have hstep := h.happens a
    rw [steps_cons, List.mem_append, or_assoc]
    refine (hstep.mem_due h hrunning ha.symm hkey).imp_right fun hdue => ?_
    exact ih (hstep.sound h) (hstep.running hrunning ha.symm) hmore hdue

/-- A trigger leaves a timer that runs. -/
theorem exists_armed_trigger (h : d.Sound) (hrunning : d.stopped = false) (key : Bytes) :
    ∃ t ∈ (d.trigger key).timers, t.key = key ∧ t.phase = .armed := by
  rw [trigger, hrunning, if_neg Bool.false_ne_true]
  rcases harmed : d.armed? key with _ | t
  · exact ⟨⟨d.fresh, key, .armed⟩, List.mem_append_right _ List.mem_cons_self, rfl, rfl⟩
  · exact ⟨t, List.mem_append_right _ List.mem_cons_self, (h.armed?_eq_some_iff.1 harmed).2⟩

end Sound

/-! ## A timer that runs -/

theorem mem_of_mem_split {u : Timer} (hsplit : d.timers = before ++ u :: after)
    (ht : t ∈ d.timers) (hne : t ≠ u) : t ∈ before ++ after := by
  rw [hsplit] at ht
  simpa [hne] using ht

theorem mem_split_of_mem (u : Timer) (ht : t ∈ before ++ after) : t ∈ before ++ u :: after :=
  ((List.Sublist.refl before).append (List.sublist_cons_self u after)).subset ht

/-- Only its own expiry or a stop ends a timer that runs. -/
theorem Happens.mem_timers_of_armed {a : Action} {called : Option Bytes}
    (h : Happens d a called e) (ht : t ∈ d.timers) (harmed : t.phase = .armed)
    (ha : a ≠ .expire t.id) : t ∈ e.timers ∨ e.stopped = true := by
  have hother : ∀ {u : Timer}, u.phase ≠ .armed → t ≠ u := fun hu heq => hu (heq ▸ harmed)
  cases h with
  | nothing => exact .inl ht
  | stop => exact .inr rfl
  | arm => exact .inl (List.mem_append_left _ ht)
  | @putOff u _ _ split =>
    by_cases hne : t = u
    · exact .inl (List.mem_append_right _ (List.mem_singleton.2 hne))
    · exact .inl (List.mem_append_left _ (mem_of_mem_split split ht hne))
  | expire split =>
    have hne := mem_of_mem_split split ht fun heq => ha (heq ▸ rfl)
    exact .inl (mem_split_of_mem _ hne)
  | letIn split expired =>
    have hne := mem_of_mem_split split ht (hother (expired ▸ nofun))
    exact .inl (mem_split_of_mem _ hne)
  | dismiss split expired => exact .inl (mem_of_mem_split split ht (hother (expired ▸ nofun)))
  | begin split admitted => exact .inl (mem_of_mem_split split ht (hother (admitted ▸ nofun)))

/-- A timer that runs is there until its expiry or a stop, whatever other steps are taken. -/
theorem Sound.mem_timers_steps (h : d.Sound) {actions : List Action}
    (hactions : .expire t.id ∉ actions) (ht : t ∈ d.timers ∨ d.stopped = true)
    (harmed : t.phase = .armed) :
    t ∈ (d.steps actions).2.timers ∨ (d.steps actions).2.stopped = true := by
  induction actions generalizing d with
  | nil => exact ht
  | cons a more ih =>
    obtain ⟨ha, hmore⟩ := List.ne_and_not_mem_of_not_mem_cons hactions
    have hstep := h.happens a
    refine ih (hstep.sound h) hmore ?_
    rcases ht with ht | hstopped
    · exact hstep.mem_timers_of_armed ht harmed ha.symm
    · exact .inr (hstep.stopped hstopped)

/-! ## What a debouncer promises -/

/-- What a debouncer promises from here on, whatever steps it takes. -/
structure Reliable (d : Debouncer) : Prop where
  /-- A timer that runs is the one stored for its key, so a key has at most one. -/
  stored : ∀ t ∈ d.timers, t.phase = .armed → d.current.lookup t.key = some t.id ∧
    ∀ u ∈ d.timers, u.key = t.key → u.phase = .armed → u = t
  /-- A callback leaves a newer timer stored. -/
  replaced : ∀ id key newer, d.current.lookup key = some newer → newer ≠ id →
    (d.enter id).current.lookup key = some newer
  /-- Once a key was triggered, and until it is called or all is stopped, a timer of it runs or is
  on its way to the call; and it gets there. -/
  delivered : d.stopped = false → ∀ key more, .stop ∉ more →
    key ∉ ((d.trigger key).steps more).1 →
      ∃ t ∈ ((d.trigger key).steps more).2.timers, t.key = key ∧
        (((d.trigger key).steps more).2.steps [.expire t.id, .enter t.id, .begin t.id]).1 = [key]
  /-- A trigger leaves one timer of its key running, and until it expires no other one is armed. -/
  single : d.stopped = false → ∀ key, ∃ t, (d.trigger key).armed? key = some t ∧
    ∀ more, .expire t.id ∉ more → ∀ u ∈ ((d.trigger key).steps more).2.timers,
      u.key = key → u.phase = .armed → u = t
  /-- After a stop no timer runs, and none is armed any more. -/
  silenced : ∀ more, ∀ t ∈ (d.stop.steps more).2.timers, t.phase ≠ .armed

theorem Happens.mem_current_of_enter {id newer : Nat} {called : Option Bytes}
    (h : Happens d (.enter id) called e) (hmem : (key, newer) ∈ d.current) (hne : newer ≠ id) :
    (key, newer) ∈ e.current := by
  cases h with
  | nothing => exact hmem
  | dismiss => exact hmem
  | letIn =>
    exact List.mem_filter.2 ⟨hmem, decide_eq_true fun hentry => hne (Prod.mk.inj hentry).2⟩

namespace Sound

/-- A callback that is let in does not take a newer timer of its key from the store. -/
theorem lookup_enter (h : d.Sound) {id newer : Nat} (hlookup : d.current.lookup key = some newer)
    (hne : newer ≠ id) : (d.enter id).current.lookup key = some newer := by
  have hentered := h.happens_enter id
  have hkept := hentered.mem_current_of_enter (mem_of_lookup hlookup) hne
  exact (lookup_eq_some_iff_mem (hentered.sound h).keyed).2 hkept

/-- A sound debouncer is reliable. -/
theorem reliable (h : d.Sound) : d.Reliable where
  stored t ht harmed :=
    ⟨(lookup_eq_some_iff_mem h.keyed).2 (h.stored t ht harmed),
      fun _ hu hkey huarmed => h.eq_of_armed hu ht hkey huarmed harmed⟩
  replaced _ _ _ := h.lookup_enter
  delivered hrunning key more hmore hcalled := by
    have htriggered := h.happens_trigger key
    have hsound := htriggered.sound h
    have hrunning' := htriggered.running hrunning (by simp)
    obtain ⟨t, ht, rfl, -⟩ := h.exists_armed_trigger hrunning key
    have hdue : t.key ∈ (d.trigger t.key).due := by
      rw [due_of_running hrunning']
      exact List.mem_map_of_mem ht
    have hstill := (hsound.mem_due_steps hrunning' hmore hdue).resolve_left hcalled
    have hlater : ((d.trigger t.key).steps more).2.stopped = false := by
      rw [hsound.stopped_steps, hrunning', Bool.false_or]
      simpa using hmore
    rw [due_of_running hlater] at hstill
    obtain ⟨u, hu, hkey⟩ := List.mem_map.1 hstill
    obtain ⟨before, after, hsplit⟩ := List.append_of_mem hu
    obtain ⟨current, hsteps⟩ := (hsound.steps more).steps_finish hsplit hlater
    exact ⟨u, hu, hkey, by rw [hsteps, hkey]⟩
  single hrunning key := by
    have hsound := (h.happens_trigger key).sound h
    obtain ⟨t, ht, hkey, harmed⟩ := h.exists_armed_trigger hrunning key
    refine ⟨t, hsound.armed?_eq_some_iff.2 ⟨ht, hkey, harmed⟩, ?_⟩
    intro more hmore u hu hukey huarmed
    have hlater := hsound.steps more
    rcases hsound.mem_timers_steps hmore (.inl ht) harmed with ht | hstopped
    · exact hlater.eq_of_armed hu ht (hukey.trans hkey.symm) huarmed harmed
    · exact absurd huarmed (hlater.not_armed_of_stopped hstopped hu)
  silenced more t ht := by
    have hstopped : (d.stop.steps more).2.stopped = true := by
      rw [h.stop.stopped_steps]
      rfl
    exact (h.stop.steps more).not_armed_of_stopped hstopped ht

end Sound

/-- **No change is lost, and none is put off twice.**  Whatever steps were taken in whatever order, a
timer that runs is the one stored for its key; an old callback leaves a newer timer stored; a key
that was triggered is called, unless all is stopped before; triggers of a key put off one timer
until it expires; and after a stop no timer runs any more. -/
theorem every_change_is_called (actions : List Action) :
    (({} : Debouncer).steps actions).2.Reliable :=
  (sound_empty.steps actions).reliable

/-! ## After a stop -/

/-- After a stop the calls of those are due that were let in before it. -/
theorem Sound.due_stop (h : d.Sound) :
    d.stop.due = (d.timers.filter (·.phase = .admitted)).map Timer.key := by
  rw [h.stop_eq, due, List.filter_filter]
  congr 1
  refine List.filter_congr fun t _ => ?_
  rcases t with ⟨id, key, _ | _ | _⟩ <;> rfl

/-- **The calls after a stop are those that were let in before it.**  Whatever steps came before,
the calls that begin after a stop and those that are still due make up the calls that had been let
in and had not begun; so none begins if there was none of these, and one can begin if there was. -/
theorem calls_after_stop (actions : List Action) :
    let d := (({} : Debouncer).steps actions).2
    (∀ more, ((d.stop.steps more).1 ++ (d.stop.steps more).2.due).Perm
        ((d.timers.filter (·.phase = .admitted)).map Timer.key)) ∧
      ((∀ more, (d.stop.steps more).1 = []) ↔ ∀ t ∈ d.timers, t.phase ≠ .admitted) := by
  intro d
  have hsound : d.Sound := sound_empty.steps actions
  have hperm : ∀ more, ((d.stop.steps more).1 ++ (d.stop.steps more).2.due).Perm
      ((d.timers.filter (·.phase = .admitted)).map Timer.key) := fun more =>
    hsound.due_stop ▸ hsound.stop.due_perm_steps (.inl rfl)
  refine ⟨hperm, fun hsilent t ht hadmitted => ?_, fun hnone more => ?_⟩
  · -- A timer that was let in is among those a stop leaves, and its call can begin at once.
    have hleft : t ∈ d.stop.timers := by
      rw [hsound.stop_eq]
      exact List.mem_filter.2 ⟨ht, by simp [hadmitted]⟩
    obtain ⟨before, after, hsplit⟩ := List.append_of_mem hleft
    have hcall := hsound.stop.steps_begin hsplit hadmitted
    exact List.cons_ne_nil t.key [] ((congrArg Prod.fst hcall).symm.trans (hsilent _))
  · have hnil : d.timers.filter (·.phase = .admitted) = [] :=
      List.filter_eq_nil_iff.2 fun t ht => by simpa using hnone t ht
    have hempty := hperm more
    rw [hnil, List.map_nil, List.perm_nil, List.append_eq_nil_iff] at hempty
    exact hempty.1

/-- A callback that was let in before the stop begins its call behind it. -/
theorem call_begins_after_stop :
    ((({} : Debouncer).steps [.trigger "a.js", .expire 0, .enter 0]).2.stop.steps [.begin 0]).1 =
      ["a.js"] := by
  decide

end Debouncer

end BraceBalance
