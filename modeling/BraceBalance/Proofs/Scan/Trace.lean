import BraceBalance.Log
import BraceBalance.Proofs.Scan.Layers

/-!
# Proofs/Scan/Trace — the log of a scan tells its verdict

    scan ──▸ openers held ──▸ verdict
      └────▸ log ──replay──▸ openers held

A scan tells each opener it takes and gives up, an opener by its own place and a closing brace in
code by the place of the brace.  `LogEntry.replay` reads an entry back and does what it tells to a
list of openers; it fails where the entry does not fit the list.  Entry by entry the replay holds
what the scan holds (`Turn.leads`), so it never fails and ends with the openers of the verdict.
-/

namespace BraceBalance

namespace LogEntry

/-! ## Reading an entry back -/

/-- The number in a field of an entry. -/
def number? (e : LogEntry) (name : Bytes) : Option Int :=
  match e.fields.lookup name with
  | some (.number n) => some n
  | _ => none

/-- The text in a field of an entry. -/
def text? (e : LogEntry) (name : Bytes) : Option Bytes :=
  match e.fields.lookup name with
  | some (.text t) => some t
  | _ => none

/-- The line and column of an entry. -/
def place? (e : LogEntry) : Option Position := do
  return ⟨← e.number? "line", ← e.number? "column"⟩

/-- The opener of an entry that has a kind beside its line and column. -/
def opener? (e : LogEntry) : Option Opener := do
  return ⟨← e.place?, .ofText (← e.text? "kind")⟩

/-- The message of the entry for an unexpected closing brace. -/
def unexpected : Bytes := "unexpected closing brace"

/-- What an entry makes of the openers held before it, the oldest first.  A push adds its opener.  A
pop takes the newest opener, which must be a brace.  The close of an interpolation takes the newest
opener, which must be an interpolation at the line and column of the entry.  A closing brace is
unexpected only where no opener is held. -/
def replay (held : List Opener) (e : LogEntry) : Option (List Opener) :=
  if e.message = "push" then e.opener?.map (held ++ [·])
  else if e.message = "pop" then
    held.getLast?.bind fun top => if top.kind = .brace then some held.dropLast else none
  else if e.message = "close interpolation" then
    held.getLast?.bind fun top =>
      if top.kind = .interpolation ∧ e.place? = some top.position then some held.dropLast else none
  else if e.message = unexpected ∧ held = [] then some []
  else none

/-- The place of an entry is read from its first two fields. -/
theorem place?_of_fields {e : LogEntry} {p : Position} {more : List (Bytes × LogValue)}
    (h : e.fields = placeFields p ++ more) : e.place? = some p := by
  rw [place?, number?, number?, h]
  rfl

/-- The opener of an entry is read from its place and its kind. -/
theorem opener?_of_fields {e : LogEntry} {o : Opener}
    (h : e.fields = placeFields o.position ++ [textField "kind" o.kind.text]) :
    e.opener? = some o := by
  have htext : e.text? "kind" = some o.kind.text := by
    rw [text?, h]
    rfl
  rw [opener?, place?_of_fields h, htext]
  exact congrArg (fun kind => some (Opener.mk o.position kind)) (Kind.ofText_text o.kind)

/-! ## Replaying one entry

An entry is replayed by its message and its fields alone, and fails if the openers held do not fit
it. -/

variable {e : LogEntry} {o : Opener} (held : List Opener)

/-- Replaying a push adds its opener. -/
theorem replay_of_push (h : e.message = "push") (ho : e.opener? = some o) :
    e.replay held = some (held ++ [o]) := by
  rw [replay, if_pos h, ho]
  rfl

/-- Replaying a pop takes the last opener, which is to be a brace. -/
theorem replay_of_pop (h : e.message = "pop") (hkind : o.kind = .brace) :
    e.replay (held ++ [o]) = some held := by
  rw [replay, h, if_neg (by decide), if_pos rfl, List.getLast?_concat, Option.bind_some,
    if_pos hkind, List.dropLast_concat]

/-- Replaying the close of an interpolation takes the last opener, which is to be one, at the place
that is told. -/
theorem replay_of_close (h : e.message = "close interpolation") (hkind : o.kind = .interpolation)
    (hplace : e.place? = some o.position) : e.replay (held ++ [o]) = some held := by
  rw [replay, h, if_neg (by decide), if_neg (by decide), if_pos rfl, List.getLast?_concat,
    Option.bind_some, if_pos ⟨hkind, hplace⟩, List.dropLast_concat]

theorem replay_of_unexpected (h : e.message = unexpected) : e.replay [] = some [] := by
  rw [replay, h, if_neg (by decide), if_neg (by decide), if_neg (by decide), if_pos ⟨rfl, rfl⟩]

end LogEntry

/-! ## The events of a run -/

/-- What a run over a text tells, in order. -/
def State.events (s : State) (cs : List Char) : List Event := (s.run [] cs).2.reverse

/-- What a run tells is what its first character tells, and then the rest. -/
theorem State.events_of_next {s t : State} {c : Char} {rest : List Char} {event : Option Event}
    (h : s.step c rest.head? = .next t event) :
    s.events (c :: rest) = event.toList ++ t.events rest := by
  have hreverse : event.toList.reverse = event.toList := by cases event <;> rfl
  rw [State.events, run_of_next h, List.append_nil, run_eq_append, List.reverse_append, hreverse]
  rfl

theorem State.events_of_halt {s : State} {c : Char} {rest : List Char} {closing : Position}
    (h : s.step c rest.head? = .halt closing) :
    s.events (c :: rest) = [.unexpectedClosing closing] := by
  rw [State.events, run_of_halt h]
  rfl

/-! ## A run against its log

By induction on the text: each turn adds at most one entry, which does to the openers what the turn
does. -/

/-- Entries, replayed on the openers `held`, lead to the openers `left` and tell of no unexpected
closing brace. -/
def Leads (held : List Opener) (log : List LogEntry) (left : List Opener) : Prop :=
  log.foldlM LogEntry.replay held = some left ∧
    ∀ e ∈ log, e.message ≠ LogEntry.unexpected

namespace Leads

variable {held next left : List Opener} {log log' : List LogEntry}

theorem nil : Leads held [] held := ⟨rfl, nofun⟩

theorem single {e : LogEntry} (h : e.replay held = some left)
    (hmessage : e.message ≠ LogEntry.unexpected) : Leads held [e] left := by
  refine ⟨?_, List.forall_mem_singleton.2 hmessage⟩
  rw [List.foldlM_cons, h]
  rfl

/-- A log and another behind it are replayed one after the other. -/
theorem append (h : Leads held log next) (h' : Leads next log' left) :
    Leads held (log ++ log') left := by
  refine ⟨?_, List.forall_mem_append.2 ⟨h.2, h'.2⟩⟩
  rw [List.foldlM_append, h.1]
  exact h'.1

end Leads

/-- **A turn tells what it does to the openers.** -/
theorem Turn.leads {s t : State} {c : Char} {next : Option Char} {lexed : Lexer × Option Marker}
    {event : Option Event} (h : Turn s c next lexed (.next t event)) (logger : Bytes) :
    Leads s.stack.entries (event.toList.map (.ofEvent logger)) t.stack.entries := by
  have hpush : utf8 "push" ≠ LogEntry.unexpected := by decide
  have hpop : utf8 "pop" ≠ LogEntry.unexpected := by decide
  have hclose : utf8 "close interpolation" ≠ LogEntry.unexpected := by decide
  cases h with
  | silent => exact .nil
  | openBrace _ _ _ opener =>
    subst opener
    rw [OpenStack.entries_push]
    exact .single (LogEntry.replay_of_push _ rfl (LogEntry.opener?_of_fields rfl)) hpush
  | closeBrace _ _ _ stack brace =>
    rw [stack, OpenStack.entries_push]
    exact .single (LogEntry.replay_of_pop _ rfl brace) hpop
  | openInterpolation _ _ _ _ opener =>
    subst opener
    rw [OpenStack.entries_push]
    exact .single (LogEntry.replay_of_push _ rfl (LogEntry.opener?_of_fields rfl)) hpush
  | @closeInterpolation _ top _ _ _ _ _ stack interpolation =>
    have hplace : (LogEntry.ofEvent logger (.closeInterpolation top.position)).place? =
        some top.position := LogEntry.place?_of_fields (List.append_nil _).symm
    rw [stack, OpenStack.entries_push]
    exact .single (LogEntry.replay_of_close _ rfl interpolation hplace) hclose

/-- What the log of a run that starts with the openers `held` tells of its outcome. -/
def Outcome.Told (held : List Opener) (log : List LogEntry) : Outcome → Prop
  | ended s => Leads held log s.stack.entries
  | halted closing => ∃ earlier last, log = earlier ++ [last] ∧ Leads held earlier [] ∧
      last.message = LogEntry.unexpected ∧ last.place? = some closing

/-- What a turn tells stands in front of what the rest of the run tells. -/
theorem Leads.told {held next : List Opener} {log log' : List LogEntry} {outcome : Outcome}
    (h : Leads held log next) (h' : outcome.Told next log') : outcome.Told held (log ++ log') := by
  cases outcome with
  | ended s => exact h.append h'
  | halted closing =>
    obtain ⟨earlier, last, rfl, hearlier, hlast⟩ := h'
    exact ⟨log ++ earlier, last, (List.append_assoc _ _ _).symm, h.append hearlier, hlast⟩

/-- **Replaying the log of a run holds what the run holds.** -/
theorem State.outcome_told {s : State} (hs : s.Sound) (logger : Bytes) (cs : List Char) :
    (s.outcome cs).Told s.stack.entries ((s.events cs).map (.ofEvent logger)) := by
  induction cs generalizing s with
  | nil => exact .nil
  | cons c rest ih =>
    have turn := hs.turn c rest.head?
    cases hstep : s.step c rest.head? with
    | halt closing =>
      rw [hstep] at turn
      rw [outcome_of_halt hstep, events_of_halt hstep, turn.of_halt.2]
      exact ⟨[], _, rfl, .nil, rfl, LogEntry.place?_of_fields (List.append_nil _).symm⟩
    | next t event =>
      rw [hstep] at turn
      rw [outcome_of_next hstep, events_of_next hstep, List.map_append]
      exact (turn.leads logger).told (ih (turn.sound hs))

/-- **The log of a scan and its verdict tell the same.**  Replayed on an empty list the log never
fails.  Unless a closing brace is unexpected, it leaves the openers of the verdict and tells of no
unexpected closing brace; if one is, its last entry alone tells of it, with the line and column of the
verdict, and no opener is held there. -/
theorem log_replays_to_verdict (src logger : Bytes) :
    let verdict := (scanTraced src).1
    let log := (scanTraced src).2.map (LogEntry.ofEvent logger)
    ∃ held, log.foldlM LogEntry.replay [] = some held ∧
      (verdict.kind ≠ .unexpectedClosing →
        held = verdict.opened ∧ ∀ e ∈ log, e.message ≠ "unexpected closing brace") ∧
      (verdict.kind = .unexpectedClosing →
        ∃ (earlier : List LogEntry) (last : LogEntry), log = earlier ++ [last] ∧
          earlier.foldlM LogEntry.replay [] = some [] ∧
          (∀ e ∈ earlier, e.message ≠ "unexpected closing brace") ∧
          last.message = "unexpected closing brace" ∧ last.place? = some verdict.closing) := by
  intro verdict log
  have htold : (State.start.outcome (Utf8.decode src)).Told [] log :=
    State.outcome_told State.sound_start logger (Utf8.decode src)
  have hverdict : verdict = (State.start.outcome (Utf8.decode src)).verdict := rfl
  rw [hverdict]
  cases houtcome : State.start.outcome (Utf8.decode src) with
  | ended t =>
    rw [houtcome] at htold
    obtain ⟨hreplay, hquiet⟩ := htold
    refine ⟨_, hreplay, fun _ => ⟨(Outcome.opened_verdict t).symm, hquiet⟩, fun hkind => ?_⟩
    exact absurd hkind (Outcome.kind_verdict_ended t)
  | halted closing =>
    rw [houtcome] at htold
    obtain ⟨earlier, last, hlog, ⟨hreplay, hquiet⟩, hmessage, hplace⟩ := htold
    refine ⟨[], ?_, fun hkind => absurd rfl hkind, fun _ => ?_⟩
    · have hlast : [last].foldlM LogEntry.replay [] = some [] := by
        rw [List.foldlM_cons, LogEntry.replay_of_unexpected hmessage]
        rfl
      rw [hlog, List.foldlM_append, hreplay]
      exact hlast
    · exact ⟨earlier, last, hlog, hreplay, hquiet, hmessage, hplace⟩

end BraceBalance
