import BraceBalance.Proofs.Scan.Lexemes

/-!
# Proofs/Scan/BlockComments — braces in block comments

A block comment whose body does not begin with a slash is passed in silence: nothing is told in
the trace, and behind it the scan is in code with the openers it had (`quiet_comment`).

A body that begins with a slash is another matter.  The `*` of the opening and that slash already
end the comment, and the body is read as code (`quiet_opening`); a brace in it counts.
-/

namespace BraceBalance

/-! ## Reading in silence -/

/-- An opener more is another stack. -/
theorem OpenStack.push_ne_self (s : OpenStack) (o : Opener) : s.push o ≠ s := by
  intro h
  have hsize := congrArg OpenStack.size h
  rw [OpenStack.size_push] at hsize
  omega

/-- A turn that keeps the openers has nothing to tell. -/
theorem Turn.event_eq_none {s t : State} {c : Char} {next : Option Char}
    {lexed : Lexer × Option Marker} {event : Option Event}
    (h : Turn s c next lexed (.next t event)) (hstack : t.stack = s.stack) : event = none := by
  cases h with
  | silent => rfl
  | openBrace => exact absurd hstack (OpenStack.push_ne_self _ _)
  | closeBrace _ _ _ stack => exact absurd (hstack.trans stack).symm (OpenStack.push_ne_self _ _)
  | openInterpolation => exact absurd hstack (OpenStack.push_ne_self _ _)
  | closeInterpolation _ _ _ _ stack =>
    exact absurd (hstack.trans stack).symm (OpenStack.push_ne_self _ _)

/-- Reading `w`, with `rest` behind it, takes every sound state with `P` to one with `Q`, and the
trace stays as it is. -/
def Quiet (P : State → Prop) (w rest : List Char) (Q : State → Prop) : Prop :=
  ∀ s : State, s.Sound → P s → ∃ t : State, t.Sound ∧ Q t ∧
    ∀ trace, s.run trace (w ++ rest) = t.run trace rest

namespace Quiet

variable {P Q R : State → Prop} {w w' rest : List Char} {c : Char}

theorem nil : Quiet P [] rest P := fun s hs hP => ⟨s, hs, hP, fun _ => rfl⟩

/-- A character that keeps the openers is read in silence. -/
theorem cons {mode mode' : Mode} {depth : Nat} {stack : OpenStack}
    (h : Steps (State.In mode depth stack) c (w ++ rest).head? (State.In mode' depth stack))
    (h' : Quiet (State.In mode' depth stack) w rest R) :
    Quiet (State.In mode depth stack) (c :: w) rest R := by
  intro s hs hin
  obtain ⟨t, event, hstep, ht⟩ := h s hin
  have turn := hstep ▸ hs.turn c (w ++ rest).head?
  obtain rfl : event = none := turn.event_eq_none (ht.stack_eq.trans hin.stack_eq.symm)
  obtain ⟨u, hu, hR, hrun⟩ := h' t (turn.sound hs) ht
  exact ⟨u, hu, hR, fun trace => (State.run_of_next hstep trace).trans (hrun trace)⟩

/-- What is read in silence behind what is read in silence leaves the trace as it is. -/
theorem append (h : Quiet P w (w' ++ rest) Q) (h' : Quiet Q w' rest R) :
    Quiet P (w ++ w') rest R := by
  intro s hs hP
  obtain ⟨t, ht, hQ, hrun⟩ := h s hs hP
  obtain ⟨u, hu, hR, hrun'⟩ := h' t ht hQ
  refine ⟨u, hu, hR, fun trace => ?_⟩
  rw [List.append_assoc, hrun, hrun']

end Quiet

/-! ## Block comments

The `*` of the opening is read again as the first character of the comment, and with a slash behind
it ends what it has begun. -/

/-- What may stand in a block comment: no `*/`, and no slash at the start. -/
def CommentBody (b : Bytes) : Prop :=
  ¬ ['*', '/'] <:+: Utf8.decode b ∧ (Utf8.decode b).head? ≠ some '/'

/-- A block comment with the body `b`. -/
def blockComment (b : Bytes) : Bytes := [0x2f, 0x2a] ++ (b ++ [0x2a, 0x2f])

/-- The marks around a body are characters by themselves, so the body between them is read by
itself. -/
theorem decode_blockComment (p b s : Bytes) :
    Utf8.decode (p ++ (blockComment b ++ s)) =
      Utf8.decode p ++
        ('/' :: '*' :: (Utf8.decode b ++ ['*', '/']) ++ Utf8.decode s) := by
  have hassoc : p ++ (blockComment b ++ s) = p ++ 0x2f :: ([] ++ 0x2a :: (b ++ 0x2a :: 0x2f :: s)) := by
    simp [blockComment]
  rw [hassoc, Utf8.decode_append_ascii (by decide), Utf8.decode_append_ascii (by decide),
    Utf8.decode_append_ascii (by decide), Utf8.decode_cons_ascii (by decide)]
  simp

/-- The body of a block comment is passed in silence, up to the `*` that begins its end. -/
theorem quiet_body {w : List Char} (h : ¬ ['*', '/'] <:+: w) (stack : OpenStack)
    (rest : List Char) :
    Quiet (State.In .blockComment 0 stack) w ('*' :: rest) (State.In .blockComment 0 stack) := by
  induction w with
  | nil => exact .nil
  | cons c w ih =>
    exact .cons (State.In.steps_blockComment (not_ends_of_body h rest))
      (ih fun hw => h (List.infix_cons hw))

/-- **A block comment is passed in silence**, if neither its body begins with a slash nor what
follows makes its last slash the begin of another comment. -/
theorem quiet_comment {w rest : List Char} (h : ¬ ['*', '/'] <:+: w) (hfirst : w.head? ≠ some '/')
    (hslash : rest.head? ≠ some '/') (hstar : rest.head? ≠ some '*') (stack : OpenStack) :
    Quiet (State.In .code 0 stack) ('/' :: '*' :: (w ++ ['*', '/'])) rest
      (State.In .code 0 stack) := by
  -- The `*` of the opening is no end of the comment.
  have hopening : ¬ ('*' = '*' ∧ (w ++ ['*', '/'] ++ rest).head? = some '/') := by
    cases w with
    | nil => simp
    | cons c w => simpa using hfirst
  refine .cons State.In.steps_beginBlockComment (.cons (State.In.steps_blockComment hopening) ?_)
  exact (quiet_body h stack _).append
    (.cons State.In.steps_endBlockComment (.cons (State.In.steps_slash hslash hstar) .nil))

/-- Before a slash the opening of a block comment is its end too. -/
theorem quiet_opening {rest : List Char} (h : rest.head? = some '/') (stack : OpenStack) :
    Quiet (State.In .code 0 stack) ['/', '*'] rest (State.In .code 0 stack) := by
  have hends : Steps (State.In .blockComment 0 stack) '*' ([] ++ rest).head?
      (State.In .code 0 stack) := by
    rw [List.nil_append, h]
    exact State.In.steps_endBlockComment
  exact .cons State.In.steps_beginBlockComment (.cons hends .nil)

/-- What is read in silence behind a text that ends in code, with no slash at its end, leaves the
scan in code with the openers and the trace of that text. -/
theorem Quiet.exists_run_eq {w rest text : List Char} {t : State} {trace : List Event}
    (h : Quiet (State.In .code 0 t.stack) w rest (State.In .code 0 t.stack))
    (ht : State.start.run [] text = (.ended t, trace)) (hcode : t.mode = .code)
    (hlast : text.getLast? ≠ some '/') :
    ∃ u : State, u.Sound ∧ State.In .code 0 t.stack u ∧
      State.start.run [] (text ++ (w ++ rest)) = u.run trace rest := by
  have hsound : t.Sound := State.sound_of_outcome (congrArg Prod.fst ht)
  obtain ⟨mode, hleaves, hrun⟩ := State.run_append ht hcode (w ++ rest)
  obtain rfl : mode = .code := by
    cases hleaves with
    | code => rfl
    | lineComment slash => exact absurd slash hlast
    | blockComment slash => exact absurd slash hlast
  obtain ⟨u, hu, hin, hquiet⟩ :=
    h _ (hsound.withMode hcode .code) ⟨rfl, hsound.idle (by simp [hcode]), rfl⟩
  exact ⟨u, hu, hin, hrun.trans (hquiet trace)⟩

/-- **Braces in block comments do not count, unless the body begins with a slash.**  Behind a prefix
that a scan reads to code and that ends in no slash, and before text that begins with neither a
slash nor a star, a comment is passed in silence: nothing is pushed, popped or told, and the scan is
in code again.  So the verdicts with two bodies are of one class and hold openers of the same kinds.
A body that begins with a slash is read as code, from that slash on. -/
theorem blockComment_passed_in_silence {p s : Bytes} {t : State} {trace : List Event}
    (hp : State.start.run [] (Utf8.decode p) = (.ended t, trace)) (hcode : t.mode = .code)
    (hlast : (Utf8.decode p).getLast? ≠ some '/') (hslash : (Utf8.decode s).head? ≠ some '/')
    (hstar : (Utf8.decode s).head? ≠ some '*') :
    (∀ b, CommentBody b → ∃ u : State, u.mode = .code ∧ u.stack = t.stack ∧
      State.start.run [] (Utf8.decode (p ++ (blockComment b ++ s))) =
        u.run trace (Utf8.decode s)) ∧
    (∀ b b', CommentBody b → CommentBody b' →
      let v := scan (p ++ (blockComment b ++ s))
      let v' := scan (p ++ (blockComment b' ++ s))
      v.kind = v'.kind ∧ v.opened.map (·.kind) = v'.opened.map (·.kind)) ∧
    ∀ b, (Utf8.decode b).head? = some '/' → ∃ u : State, u.mode = .code ∧ u.stack = t.stack ∧
      State.start.run [] (Utf8.decode (p ++ (blockComment b ++ s))) =
        u.run trace (Utf8.decode b ++ '*' :: '/' :: Utf8.decode s) := by
  have hpasses : ∀ b, CommentBody b → ∃ u : State, u.Sound ∧ State.In .code 0 t.stack u ∧
      State.start.run [] (Utf8.decode (p ++ (blockComment b ++ s))) =
        u.run trace (Utf8.decode s) := by
    rintro b ⟨hbody, hfirst⟩
    rw [decode_blockComment]
    exact (quiet_comment hbody hfirst hslash hstar t.stack).exists_run_eq hp hcode hlast
  refine ⟨fun b hb => ?_, fun b b' hb hb' => ?_, fun b hfirst => ?_⟩
  · obtain ⟨u, -, hin, hrun⟩ := hpasses b hb
    exact ⟨u, hin.mode_eq, hin.stack_eq, hrun⟩
  · obtain ⟨u, hu, hin, hrun⟩ := hpasses b hb
    obtain ⟨u', hu', hin', hrun'⟩ := hpasses b' hb'
    have hkinds := State.outcome_kinds_eq hu hu' (hin.alike_of_code hin')
      (hin.stack_eq.trans hin'.stack_eq.symm) (Utf8.decode s)
    have hscan : ∀ {src : Bytes} {x : State},
        State.start.run [] (Utf8.decode src) = x.run trace (Utf8.decode s) →
          scan src = (x.outcome (Utf8.decode s)).verdict := by
      intro src x h
      rw [scan_eq_verdict, State.outcome, h, State.run_fst]
    rw [← hscan hrun, ← hscan hrun'] at hkinds
    exact hkinds
  · have hhead : (Utf8.decode b ++ '*' :: '/' :: Utf8.decode s).head? = some '/' := by
      rw [List.head?_append, hfirst]
      rfl
    obtain ⟨u, -, hin, hrun⟩ :=
      (quiet_opening hhead t.stack).exists_run_eq hp hcode hlast
    refine ⟨u, hin.mode_eq, hin.stack_eq, ?_⟩
    rw [decode_blockComment, ← hrun]
    simp

/-- Behind an opening brace, with a closing brace behind them: a comment on a closing brace and one
whose body begins with a star are passed, one whose body begins with a slash is not. -/
theorem blockComment_passed_in_silence_braces :
    CommentBody [0x7d] ∧ CommentBody [0x2a, 0x7b] ∧
      (scan ([0x7b] ++ (blockComment [0x7d] ++ [0x7d]))).kind =
        (scan ([0x7b] ++ (blockComment [0x2a, 0x7b] ++ [0x7d]))).kind ∧
      ∃ u : State, u.mode = .code ∧ u.stack.size = 1 ∧
        State.start.run [] (Utf8.decode ([0x7b] ++ (blockComment [0x2f, 0x7d] ++ [0x7d]))) =
          u.run [.push ⟨⟨1, 1⟩, .brace⟩] ['/', '\x7d', '*', '/', '\x7d'] := by
  have hp : State.start.run [] (Utf8.decode [0x7b]) =
      (.ended { column := 1, stack := ⟨[⟨⟨1, 1⟩, .brace⟩]⟩ }, [.push ⟨⟨1, 1⟩, .brace⟩]) := rfl
  have hclosing : CommentBody [0x7d] := ⟨by decide, by decide⟩
  have hopening : CommentBody [0x2a, 0x7b] := ⟨by decide, by decide⟩
  obtain ⟨-, hkinds, hcode⟩ :=
    @blockComment_passed_in_silence [0x7b] [0x7d] _ _ hp rfl (by decide) (by decide) (by decide)
  obtain ⟨u, hmode, hstack, hrun⟩ := hcode [0x2f, 0x7d] (by decide)
  exact ⟨hclosing, hopening, (hkinds _ _ hclosing hopening).1, u, hmode, by rw [hstack]; rfl, hrun⟩

/-- A body without the end of a comment, and yet its brace counts. -/
theorem brace_counts_behind_slash :
    ¬ ['*', '/'] <:+: Utf8.decode [0x2f, 0x7b] ∧
      scan (blockComment [0x2f, 0x7b]) = .unmatchedOpen [⟨⟨1, 4⟩, .brace⟩] ∧
      scan (blockComment [0x7b]) = .allMatched := by
  decide

end BraceBalance
