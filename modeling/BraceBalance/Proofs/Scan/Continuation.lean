import BraceBalance.Proofs.Scan.Positions

/-!
# Proofs/Scan/Continuation — a text with more behind it

    w ++ rest ──scan──▸ outcome   =   w ──scan──▸ state ──scan of rest──▸ outcome

A scan looks one character ahead, and only for what ends `//`, `/*`, `*/` or `${`.  So a text may be
cut in front of any other character (`State.outcome_append_of_overlooked`), and a closing brace is
one of these.  Where a scan halts at a closing brace, the text before the brace has led to code with
nothing open, and the text behind it is not looked at (`State.halted_cases`).

The halt is at a line and column; `offset?` finds the byte that stands there.
-/

namespace BraceBalance

/-! ## Looking ahead -/

/-- What no character waits for: it ends neither `//`, `/*` and `*/` nor `${`. -/
def Overlooked (next : Option Char) : Prop :=
  next ≠ some '/' ∧ next ≠ some '*' ∧ next ≠ some '\x7b'

/-- No character waits for a closing brace. -/
theorem overlooked_closing (cs : List Char) : Overlooked ('\x7d' :: cs).head? := by
  simp [Overlooked]

/-- In front of what no character waits for, a character is read as at the end of a text. -/
theorem State.step_of_overlooked {next : Option Char} (h : Overlooked next) (s : State) (c : Char) :
    s.step c next = s.step c none := by
  obtain ⟨hslash, hstar, hbrace⟩ := h
  simp only [State.step, State.stepInLine, State.stepCode, State.stepTemplate, hslash, hstar,
    hbrace, reduceCtorEq, and_false, if_false]

/-- A run goes on over `rest`, unless it has halted. -/
def Outcome.andThen (rest : List Char) : Outcome → Outcome
  | ended s => s.outcome rest
  | halted closing => .halted closing

/-- **A text is scanned up to a cut, and then behind it**, if the cut is in front of a character
that is not looked for. -/
theorem State.outcome_append_of_overlooked {rest : List Char} (h : Overlooked rest.head?)
    (s : State) (w : List Char) : s.outcome (w ++ rest) = (s.outcome w).andThen rest := by
  induction w generalizing s with
  | nil => rfl
  | cons c w ih =>
    have hahead : s.step c (w ++ rest).head? = s.step c w.head? := by
      cases w with
      | nil => exact s.step_of_overlooked h c
      | cons d w => rfl
    rw [List.cons_append]
    cases hstep : s.step c w.head? with
    | next t event =>
      rw [outcome_of_next (hahead.trans hstep), outcome_of_next hstep]
      exact ih t
    | halt closing =>
      rw [outcome_of_halt (hahead.trans hstep), outcome_of_halt hstep]
      rfl

/-! ## Where a scan halts

A run is cut at the brace it halts at: the text before it is scanned to its end, and the brace does
not hang on what follows. -/

/-- A closing brace in code with nothing open halts a scan, whatever follows. -/
theorem State.step_unexpected {s : State} (hcode : s.mode = .code) (hstack : s.stack = .empty)
    (next : Option Char) : s.step '\x7d' next = .halt ⟨s.line, s.column + 1⟩ := by
  simp [State.step, State.stepInLine, State.stepCode, Mode.opened?, State.here, hcode, hstack]

/-- **A scan that halts has met a closing brace with nothing open before it.**  Up to that brace the
text is scanned to its end, and the scan halts at the brace whatever follows. -/
theorem State.halted_cases {s : State} (hs : s.Sound) {cs : List Char} {closing : Position}
    (h : s.outcome cs = .halted closing) :
    ∃ before after t, cs = before ++ '\x7d' :: after ∧ s.outcome before = .ended t ∧
      t.stack = .empty ∧ (∀ next, t.step '\x7d' next = .halt closing) ∧
      closing = .ofPlace (walk (before.foldl walk s.lexer.place) '\x7d') := by
  induction cs generalizing s with
  | nil => cases h
  | cons c rest ih =>
    have turn := hs.turn c rest.head?
    cases hstep : s.step c rest.head? with
    | halt p =>
      rw [outcome_of_halt hstep] at h
      cases h
      rw [hstep] at turn
      obtain ⟨rfl, hplace⟩ := turn.halt_cases
      obtain ⟨hcode, hstack⟩ := turn.of_halt
      have hhalt : closing = ⟨s.line, s.column + 1⟩ := hplace
      refine ⟨[], rest, s, rfl, rfl, hstack, fun next => ?_, hplace⟩
      rw [hhalt]
      exact s.step_unexpected hcode hstack next
    | next u event =>
      rw [outcome_of_next hstep] at h
      rw [hstep] at turn
      obtain ⟨before, after, t, rfl, hended, hstack, hhalt, hplace⟩ := ih (turn.sound hs) h
      -- The brace is not looked for by the character before it.
      have hahead : s.step c before.head? = .next u event := by
        cases before with
        | nil => exact (s.step_of_overlooked (overlooked_closing after) c).symm.trans hstep
        | cons d before => exact hstep
      refine ⟨c :: before, after, t, rfl, (outcome_of_next hahead).trans hended, hstack, hhalt, ?_⟩
      rw [hplace, turn.place_next, List.foldl_cons]

/-! ## The byte at a line and column -/

/-- How many bytes of some glyphs stand before the one at `p`, if the first follows `place`. -/
def offsetFrom (p : Position) (place : Nat × Nat) : List Glyph → Option Nat
  | [] => none
  | g :: gs =>
    if p = .ofPlace (walk place g.char) then some 0
    else (offsetFrom p (walk place g.char) gs).map (g.bytes.length + ·)

/-- The offset in a text of the character at a line and column, in bytes. -/
def offset? (src : Bytes) (p : Position) : Option Nat := offsetFrom p (1, 0) (Utf8.glyphs src)

theorem Position.not_before_self (p : Position) : ¬ p.Before p := by
  unfold Position.Before
  omega

/-- Characters only lead further on. -/
theorem Position.before_foldl_walk {p : Position} {place : Nat × Nat}
    (h : p.Before (.ofPlace place) ∨ p = .ofPlace place) (cs : List Char) :
    p.Before (.ofPlace (cs.foldl walk place)) ∨ p = .ofPlace (cs.foldl walk place) := by
  induction cs generalizing place with
  | nil => exact h
  | cons c cs ih => exact ih (.inl (Position.before_walk h c))

/-- Places only grow, so the glyph at the place that some glyphs lead to is the one behind them. -/
theorem offsetFrom_append (place : Nat × Nat) (gs : List Glyph) (g : Glyph) (after : List Glyph) :
    offsetFrom (.ofPlace (walk ((gs.map (·.char)).foldl walk place) g.char)) place
      (gs ++ g :: after) = some (Utf8.join gs).length := by
  induction gs generalizing place with
  | nil => simp [offsetFrom, Utf8.join]
  | cons g' gs ih =>
    have hne : Position.ofPlace (walk (((g' :: gs).map (·.char)).foldl walk place) g.char) ≠
        .ofPlace (walk place g'.char) := by
      intro heq
      have hle := Position.before_foldl_walk
        (p := .ofPlace (walk place g'.char)) (.inr rfl) (gs.map (·.char))
      exact Position.not_before_self _ (heq ▸ Position.before_walk hle g.char)
    rw [List.cons_append, offsetFrom, if_neg hne]
    simp only [List.map_cons, List.foldl_cons, ih, Option.map_some, Utf8.join, List.flatMap_cons,
      List.length_append]

/-- An ASCII character has the offset of the text before it. -/
theorem offset?_append_ascii {b : UInt8} (hb : b < 0x80) (a rest : Bytes) :
    offset? (a ++ b :: rest)
      (.ofPlace (walk ((Utf8.decode a).foldl walk (1, 0)) (Char.ofNat b.toNat))) =
        some a.length := by
  have hlength : (Utf8.join (Utf8.glyphs a)).length = a.length := by rw [Utf8.join_glyphs]
  rw [offset?, Utf8.glyphs_append_ascii hb, ← hlength]
  exact offsetFrom_append (1, 0) (Utf8.glyphs a) ⟨Char.ofNat b.toNat, [b]⟩ (Utf8.glyphs rest)

/-! ## The first unexpected closing brace -/

/-- **The first unexpected closing brace settles the verdict.**  If a closing brace is unexpected, the
line and column of the verdict are those of a closing brace in the source; the source up to this
brace has all its braces matched, and whatever follows the brace, the verdict is the same. -/
theorem unexpected_closing_settles {src : Bytes} (h : (scan src).kind = .unexpectedClosing) :
    ∃ k, offset? src (scan src).closing = some k ∧ src[k]? = some 0x7d ∧
      scan (src.take k) = .allMatched ∧ ∀ ext, scan (src.take (k + 1) ++ ext) = scan src := by
  cases houtcome : State.start.outcome (Utf8.decode src) with
  | ended t =>
    rw [scan_eq_verdict, houtcome] at h
    exact absurd h (Outcome.kind_verdict_ended t)
  | halted closing =>
    have hscan : scan src = .unexpectedClosing closing := by rw [scan_eq_verdict, houtcome]; rfl
    obtain ⟨before, after, t, htext, hended, hstack, hhalt, hplace⟩ :=
      State.halted_cases State.sound_start houtcome
    obtain ⟨a, rest, hsrc, rfl, -⟩ :=
      Utf8.exists_eq_append_of_decode (by decide) (by decide) htext
    have hsplit : src = a ++ 0x7d :: rest := hsrc
    have hsize : t.stack.size = 0 := by rw [hstack]; rfl
    refine ⟨a.length, ?_, by simp [hsplit], ?_, fun ext => ?_⟩
    · rw [hscan, hsplit]
      exact (congrArg (offset? _) hplace).trans (offset?_append_ascii (by decide) a rest)
    · rw [hsplit, List.take_left, scan_eq_verdict, hended, Outcome.verdict, if_pos hsize]
    · have htake : src.take (a.length + 1) ++ ext = a ++ 0x7d :: ext := by
        rw [hsplit, List.take_length_add_append, List.append_assoc]
        rfl
      have hdecode : Utf8.decode (a ++ 0x7d :: ext) =
          Utf8.decode a ++ '\x7d' :: Utf8.decode ext := Utf8.decode_append_ascii (by decide) a ext
      rw [htake, hscan, scan_eq_verdict, hdecode,
        State.outcome_append_of_overlooked (overlooked_closing _), hended, Outcome.andThen,
        State.outcome_of_halt (hhalt _)]
      rfl

/-- Behind a slash and half a character. -/
theorem unexpected_closing_settles_broken :
    (scan [0x2f, 0xc3, 0x7d, 0x7b]).kind = .unexpectedClosing ∧
      offset? [0x2f, 0xc3, 0x7d, 0x7b] ⟨1, 3⟩ = some 2 ∧ scan [0x2f, 0xc3] = .allMatched ∧
      ∀ ext, scan ([0x2f, 0xc3, 0x7d] ++ ext) = .unexpectedClosing ⟨1, 3⟩ := by
  have hkind : (scan [0x2f, 0xc3, 0x7d, 0x7b]).kind = .unexpectedClosing := by decide
  have hoffset : offset? [0x2f, 0xc3, 0x7d, 0x7b] ⟨1, 3⟩ = some 2 := by decide
  obtain ⟨k, hk, -, hbefore, hext⟩ := unexpected_closing_settles hkind
  obtain rfl : 2 = k := Option.some.inj (hoffset.symm.trans hk)
  exact ⟨hkind, hoffset, hbefore, hext⟩

end BraceBalance
