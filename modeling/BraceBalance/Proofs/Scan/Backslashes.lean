import BraceBalance.Proofs.Scan.Likeness

/-!
# Proofs/Scan/Backslashes — a backslash outside of strings is dead

In code a backslash is noted as one that quotes, and the note stays through code and comments.  But
nothing there asks for it, and where something would, at the start of a string or of a line, it is
taken back.  So two states that differ in the note alone are twins (`State.Twin`), and so is what
each character makes of them (`State.Twin.step`).  A scan that takes a backslash in code for a
character like any other (`State.stepPlain`) runs as the twin of one that does not.
-/

namespace BraceBalance

/-! ## Twins

Twins may differ in what is noted as long as it quotes nothing, so the difference does not last into
a string. -/

/-- States that agree but for a pending backslash, and in that too where a backslash quotes. -/
structure State.Twin (s t : State) : Prop where
  eq : t = { s with escaped := t.escaped }
  escaped_eq : s.mode.quoting → s.escaped = t.escaped

/-- Steps to twins that tell the same, or to one halt. -/
inductive Step.Twin : Step → Step → Prop
  | next {s t : State} (twin : s.Twin t) (event : Option Event) :
    Twin (.next s event) (.next t event)
  | halt (closing : Position) : Twin (.halt closing) (.halt closing)

namespace State

variable {s t : State} {c : Char} {next : Option Char}

theorem Twin.refl (s : State) : s.Twin s := ⟨rfl, fun _ => rfl⟩

/-- Where a backslash quotes nothing, it makes no difference whether one is pending. -/
theorem twin_of_not_quoting {line column depth : Nat} {mode : Mode} {noted escaped : Bool}
    {stack : OpenStack} (h : mode.quoting = false) :
    Twin ⟨line, column, mode, noted, depth, stack⟩ ⟨line, column, mode, escaped, depth, stack⟩ :=
  ⟨rfl, fun hquoting => absurd (h.symm.trans hquoting) Bool.false_ne_true⟩

/-- Twins of twins are twins. -/
theorem Twin.trans {u : State} (h : s.Twin t) (h' : t.Twin u) : s.Twin u := by
  have hmode : t.mode = s.mode := by rw [h.eq]
  refine ⟨?_, fun hquoting => (h.escaped_eq hquoting).trans (h'.escaped_eq (hmode ▸ hquoting))⟩
  rw [h'.eq, h.eq]

end State

theorem Step.Twin.refl (step : Step) : step.Twin step := by
  cases step with
  | next s event => exact .next (.refl s) event
  | halt closing => exact .halt closing

theorem Step.Twin.trans {x y z : Step} (h : x.Twin y) (h' : y.Twin z) : x.Twin z := by
  cases h with
  | next twin event =>
    cases h' with
    | next twin' => exact .next (twin.trans twin') event
  | halt closing => exact h'

namespace State

variable {s t : State} {c : Char}

/-! ## What one character makes of twins

In a string twins are one state; elsewhere the note is looked at by a backslash alone, and then only
to be made. -/

/-- In code a backslash is noted, whether or not one was. -/
theorem stepCode_backslash (s : State) (next : Option Char) :
    s.stepCode '\\' next = .next { s with escaped := true } none := by
  obtain ⟨line, column, mode, _ | _, depth, stack⟩ := s
  · simp [stepCode]
  · simp [stepCode, Mode.opened?]

/-- In code a character makes twins of twins, whatever is noted. -/
theorem twin_stepCode (hquiet : s.mode.quoting = false) (escaped : Bool) (c : Char)
    (next : Option Char) : (s.stepCode c next).Twin ({ s with escaped }.stepCode c next) := by
  by_cases hb : c = '\\'
  · rw [hb, stepCode_backslash, stepCode_backslash]
    exact .refl _
  unfold stepCode
  simp only [hb, false_and, if_false]
  by_cases hline : c = '/' ∧ next = some '/'
  · simp only [if_pos hline]
    exact .next (twin_of_not_quoting rfl) none
  by_cases hblock : c = '/' ∧ next = some '*'
  · simp only [if_neg hline, if_pos hblock]
    exact .next (twin_of_not_quoting rfl) none
  simp only [if_neg hline, if_neg hblock]
  cases Mode.opened? c with
  | some mode => exact .refl _
  | none =>
    dsimp only
    split_ifs
    · exact .next (twin_of_not_quoting hquiet) _
    · cases s.stack.pop? with
      | some popped => exact .next (twin_of_not_quoting hquiet) _
      | none => exact .halt _
    · exact .next (twin_of_not_quoting hquiet) none

/-- **What a character makes of twins are twins**, and it tells the same of both. -/
theorem Twin.step (h : s.Twin t) (c : Char) (next : Option Char) :
    (s.step c next).Twin (t.step c next) := by
  obtain ⟨heq, hescaped⟩ := h
  generalize t.escaped = escaped at heq hescaped
  subst heq
  by_cases hn : c = '\n'
  · rw [State.step, State.step, if_pos hn, if_pos hn]
    exact .refl _
  rw [State.step, State.step, if_neg hn, if_neg hn]
  obtain ⟨line, column, mode, noted, depth, stack⟩ := s
  cases mode with
  | code => exact twin_stepCode rfl escaped c next
  | lineComment => exact .next (twin_of_not_quoting rfl) none
  | blockComment =>
    unfold stepInLine
    dsimp only
    split_ifs
    · exact .next (twin_of_not_quoting rfl) none
    · exact .next (twin_of_not_quoting rfl) none
  | singleQuoted | doubleQuoted | template =>
    -- Where a backslash quotes, twins are one.
    obtain rfl := hescaped rfl
    exact .refl _

/-! ## A backslash like any other character -/

/-- Reads a character, but notes a backslash in strings and templates only. -/
def stepPlain (s : State) (c : Char) (next : Option Char) : Step :=
  if c = '\\' ∧ s.mode = .code then .next { s with column := s.column + 1 } none
  else s.step c next

/-- A backslash in code is noted and does nothing else. -/
theorem step_backslash (hcode : s.mode = .code) (next : Option Char) :
    s.step '\\' next = .next { s with column := s.column + 1, escaped := true } none := by
  obtain ⟨line, column, mode, noted, depth, stack⟩ := s
  obtain rfl : mode = .code := hcode
  exact stepCode_backslash _ next

/-- A scan that does not note it goes to a twin. -/
theorem twin_stepPlain (s : State) (c : Char) (next : Option Char) :
    (s.stepPlain c next).Twin (s.step c next) := by
  unfold stepPlain
  split_ifs with hb
  · obtain ⟨rfl, hcode⟩ := hb
    have hquiet : s.mode.quoting = false := by rw [hcode]; rfl
    rw [step_backslash hcode]
    exact .next (twin_of_not_quoting hquiet) none
  · exact .refl _

/-! ## Where a backslash is noted, and for how long -/

section

variable {next : Option Char} {event : Option Event}

/-- What a quotation mark begins is read with backslashes that quote. -/
theorem quoting_of_opened? {mode : Mode} (h : Mode.opened? c = some mode) :
    mode.quoting = true := by
  unfold Mode.opened? at h
  split_ifs at h <;> cases h <;> rfl

/-- Another character of code leaves the note as it is, unless it begins a string. -/
theorem escaped_stepCode (h : s.stepCode c next = .next t event) (hb : c ≠ '\\') :
    t.escaped = s.escaped ∨ t.escaped = false ∧ t.mode.quoting = true := by
  unfold stepCode at h
  simp only [hb, false_and, if_false] at h
  cases hopened : Mode.opened? c with
  | some mode =>
    simp only [hopened] at h
    split_ifs at h
    · cases h
      exact .inl rfl
    · cases h
      exact .inl rfl
    · cases h
      exact .inr ⟨rfl, quoting_of_opened? hopened⟩
  | none =>
    simp only [hopened] at h
    split_ifs at h
    · cases h
      exact .inl rfl
    · cases h
      exact .inl rfl
    · cases h
      exact .inl rfl
    · cases hpop : s.stack.pop? with
      | none =>
        rw [hpop] at h
        cases h
      | some popped =>
        rw [hpop] at h
        cases h
        exact .inl rfl
    · cases h
      exact .inl rfl

/-- So does one of a comment. -/
theorem escaped_step (h : s.step c next = .next t event) (hquiet : s.mode.quoting = false)
    (hn : c ≠ '\n') (hb : ¬(c = '\\' ∧ s.mode = .code)) :
    t.escaped = s.escaped ∨ t.escaped = false ∧ t.mode.quoting = true := by
  rw [State.step, if_neg hn] at h
  obtain ⟨line, column, mode, noted, depth, stack⟩ := s
  cases mode with
  | code =>
    have hnote := escaped_stepCode (show stepCode ⟨line, column + 1, .code, noted, depth, stack⟩ c
      next = .next t event from h) fun heq => hb ⟨heq, rfl⟩
    exact hnote
  | lineComment =>
    cases h
    exact .inl rfl
  | blockComment =>
    cases h
    split_ifs
    · exact .inl rfl
    · exact .inl rfl
  | singleQuoted | doubleQuoted | template => cases hquiet

/-- A backslash that is noted outside of strings stays so until a line or a string begins. -/
theorem escaped_of_step (h : s.step c next = .next t event) (hquiet : s.mode.quoting = false)
    (hnoted : s.escaped = true) (hn : c ≠ '\n') (hout : t.mode.quoting = false) :
    t.escaped = true := by
  by_cases hb : c = '\\' ∧ s.mode = .code
  · rw [hb.1, step_backslash hb.2] at h
    cases h
    rfl
  · rcases escaped_step h hquiet hn hb with heq | ⟨-, hquoting⟩
    · exact heq.trans hnoted
    · exact absurd (hout.symm.trans hquoting) Bool.false_ne_true

/-- Read plainly, a backslash is noted where it quotes and nowhere else. -/
theorem quoting_of_stepPlain (h : s.stepPlain c next = .next t event) (hnew : s.escaped = false)
    (hnoted : t.escaped = true) : s.mode.quoting = true := by
  refine eq_true_of_ne_false fun hquiet => ?_
  have hnone : t.escaped = false := by
    unfold stepPlain at h
    split_ifs at h with hb
    · cases h
      exact hnew
    · by_cases hn : c = '\n'
      · rw [State.step, if_pos hn] at h
        cases h
        rfl
      · rcases escaped_step h hquiet hn hb with heq | ⟨hfalse, -⟩
        · exact heq.trans hnew
        · exact hfalse
  exact absurd (hnone.symm.trans hnoted) Bool.false_ne_true

end

/-! ## Runs of twins -/

/-- `State.run`, with any way to read a character. -/
def runBy (read : State → Char → Option Char → Step) (s : State) (trace : List Event) :
    List Char → Outcome × List Event
  | [] => (.ended s, trace)
  | c :: rest =>
    match read s c rest.head? with
    | .next t (some event) => t.runBy read (event :: trace) rest
    | .next t none => t.runBy read trace rest
    | .halt closing => (.halted closing, .unexpectedClosing closing :: trace)

/-- A run that reads as a scan does is a run of it. -/
theorem runBy_step (s : State) (trace : List Event) (cs : List Char) :
    s.runBy State.step trace cs = s.run trace cs := by
  induction cs generalizing s trace with
  | nil => rfl
  | cons c rest ih =>
    rw [runBy, run]
    cases s.step c rest.head? with
    | halt closing => rfl
    | next t event => cases event <;> exact ih t _

/-- **Runs of twins come to one verdict and tell the same**, if what is read of twins are twins. -/
theorem Twin.runBy {read read' : State → Char → Option Char → Step}
    (hread : ∀ {s t : State}, s.Twin t → ∀ c next, (read s c next).Twin (read' t c next))
    (h : s.Twin t) (trace : List Event) (cs : List Char) :
    (s.runBy read trace cs).map Outcome.verdict id =
      (t.runBy read' trace cs).map Outcome.verdict id := by
  induction cs generalizing s t trace with
  | nil =>
    have hstack : t.stack = s.stack := by rw [h.eq]
    simp only [State.runBy, Prod.map, Outcome.verdict, hstack]
  | cons c rest ih =>
    rw [State.runBy, State.runBy]
    have hstep := hread h c rest.head?
    generalize read s c rest.head? = x, read' t c rest.head? = y at hstep
    cases hstep with
    | halt closing => rfl
    | next twin event =>
      cases event with
      | none => exact ih twin trace
      | some event => exact ih twin (event :: trace)

end State

/-- The verdict on a source and the trace, with any way to read a character. -/
def scanTracedBy (read : State → Char → Option Char → Step) (src : Bytes) : Verdict × List Event :=
  let (outcome, trace) := State.start.runBy read [] (Utf8.decode src)
  (outcome.verdict, trace.reverse)

/-- **A backslash outside of strings is dead.**  From a state in code or in a comment a run comes to
the same verdict and tells the same, whether or not a backslash was noted, although the note stays
until a line or a string begins.  So a scan that notes a backslash in strings and templates only
gives the same verdict on every source, with the same trace. -/
theorem backslash_dead_outside_strings :
    (∀ s : State, s.mode.quoting = false → ∀ escaped trace cs,
      let t := { s with escaped }
      (s.run trace cs).1.verdict = (t.run trace cs).1.verdict ∧
        (s.run trace cs).2 = (t.run trace cs).2) ∧
    (∀ (s t : State) c next event, s.step c next = .next t event → s.mode.quoting = false →
      s.escaped = true → c ≠ '\n' → t.mode.quoting = false → t.escaped = true) ∧
    (∀ (s t : State) c next event, s.stepPlain c next = .next t event →
      s.escaped = false → t.escaped = true → s.mode.quoting = true) ∧
    ∀ src, scanTracedBy State.stepPlain src = scanTraced src := by
  refine ⟨fun s hquiet escaped trace cs => ?_, fun s t c next event h => State.escaped_of_step h,
    fun s t c next event h => State.quoting_of_stepPlain h, fun src => ?_⟩
  · have hruns := State.Twin.runBy State.Twin.step
      (State.twin_of_not_quoting hquiet : s.Twin { s with escaped }) trace cs
    rw [State.runBy_step, State.runBy_step] at hruns
    exact Prod.mk.inj hruns
  · have hruns := State.Twin.runBy
      (fun h c next => (State.twin_stepPlain _ c next).trans (h.step c next))
      (State.Twin.refl State.start) [] (Utf8.decode src)
    rw [State.runBy_step] at hruns
    obtain ⟨hverdict, htrace⟩ := Prod.mk.inj hruns
    exact Prod.ext hverdict (congrArg List.reverse htrace)

/-- A backslash in code is still noted in a comment behind it. -/
theorem backslash_dead_outside_strings_comment :
    ∃ s : State, State.start.outcome ['\\', ' ', '/', '/', '\x7d'] = .ended s ∧
      s.mode = .lineComment ∧ s.escaped = true ∧
      (s.run [] ['\n', '\x27', '\x7b']).1.verdict =
        ({ s with escaped := false }.run [] ['\n', '\x27', '\x7b']).1.verdict := by
  refine ⟨{ column := 5, mode := .lineComment, escaped := true }, rfl, rfl, rfl, ?_⟩
  exact (backslash_dead_outside_strings.1 _ rfl false [] _).1

end BraceBalance
