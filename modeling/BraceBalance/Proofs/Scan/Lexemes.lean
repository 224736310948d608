import BraceBalance.Proofs.Scan.Grammar
import BraceBalance.Proofs.Scan.Likeness

/-!
# Proofs/Scan/Lexemes — what stands in a string or a comment does not count

    p ──scan──▸ code ──opening, body, closing──▸ code ──scan──▸ verdict

A scan that has come to code reads a whole string, line comment or template text and is in code
again with the openers it had, whatever the body is (`Lexeme.exists_takes`).  Two bodies leave it
at different places and alike otherwise, so the rest of the source is judged alike.

The one place where a scan looks ahead across the end of `p` is a slash there: `State.run_append`
says what it makes of the first character behind it.
-/

namespace BraceBalance

/-! ## Reading on behind a text that ends in code

Only the last character can read otherwise with more text behind it, and only if it is a slash. -/

/-- The mode of a scan that has come to code and sees `next` behind the character `last`: a slash
may begin a comment with it. -/
inductive Leaves (last next : Option Char) : Mode → Prop
  | code : Leaves last next .code
  | lineComment (slash : last = some '/') (follows : next = some '/') : Leaves last next .lineComment
  | blockComment (slash : last = some '/') (follows : next = some '*') :
      Leaves last next .blockComment

theorem State.step_of_code_eq {s t : State} {c : Char} {next : Option Char} {event : Option Event}
    (h : s.step c next = .next t event) (hcode : t.mode = .code) :
    s.step c next = .next { t with mode := .code } event := by
  rw [h, ← hcode]

/-- What a character that leads to code at the end of a text does before further text. -/
theorem State.step_of_code {s t : State} {c : Char} {event : Option Event}
    (h : s.step c none = .next t event) (hcode : t.mode = .code) (next : Option Char) :
    ∃ mode, Leaves (some c) next mode ∧ s.step c next = .next { t with mode } event := by
  by_cases hsame : s.step c next = s.step c none
  · exact ⟨.code, .code, step_of_code_eq (hsame.trans h) hcode⟩
  -- Only a slash in code, a star in a block comment and a dollar in a template look ahead, and the
  -- last two do not lead to code without what they look for.
  by_cases hn : c = '\n'
  · exact absurd (by simp only [State.step, if_pos hn]) hsame
  obtain ⟨line, column, mode, escaped, depth, stack⟩ := s
  simp only [State.step, if_neg hn, State.stepInLine] at h hsame ⊢
  cases mode with
  | code =>
    by_cases hl : c = '/' ∧ next = some '/'
    · obtain ⟨rfl, rfl⟩ := hl
      obtain ⟨rfl, rfl⟩ := Step.next.inj h
      exact ⟨.lineComment, .lineComment rfl rfl, rfl⟩
    by_cases hb : c = '/' ∧ next = some '*'
    · obtain ⟨rfl, rfl⟩ := hb
      obtain ⟨rfl, rfl⟩ := Step.next.inj h
      exact ⟨.blockComment, .blockComment rfl rfl, rfl⟩
    · exact absurd (by simp [State.stepCode, hl, hb]) hsame
  | lineComment => exact absurd rfl hsame
  | blockComment =>
    obtain ⟨rfl, -⟩ := Step.next.inj h
    simp at hcode
  | singleQuoted => exact absurd rfl hsame
  | doubleQuoted => exact absurd rfl hsame
  | template =>
    by_cases ho : c = '$' ∧ next = some '\x7b'
    · obtain ⟨rfl, rfl⟩ := ho
      obtain ⟨rfl, -⟩ := Step.next.inj h
      simp at hcode
    · exact absurd (by simp [State.stepTemplate, ho]) hsame

/-- **A text that ends in code, with more text behind it.**  It leads where it led alone, unless
its last slash and what follows begin a comment. -/
theorem State.run_append {s t : State} {trace trace' : List Event} {w : List Char}
    (h : s.run trace w = (.ended t, trace')) (hcode : t.mode = .code) (rest : List Char) :
    ∃ mode, Leaves w.getLast? rest.head? mode ∧
      s.run trace (w ++ rest) = { t with mode }.run trace' rest := by
  induction w generalizing s trace with
  | nil =>
    obtain ⟨⟨rfl⟩, rfl⟩ := Prod.mk.inj h
    exact ⟨.code, .code, by rw [← hcode]; rfl⟩
  | cons c w ih =>
    cases hstep : s.step c w.head? with
    | halt closing =>
      rw [State.run, hstep] at h
      cases h
    | next u event =>
      rw [State.run_of_next hstep] at h
      cases w with
      | nil =>
        obtain ⟨⟨rfl⟩, rfl⟩ := Prod.mk.inj h
        obtain ⟨mode, hleaves, hnext⟩ := State.step_of_code hstep hcode rest.head?
        exact ⟨mode, hleaves, State.run_of_next hnext trace⟩
      | cons d w =>
        have hstep' : s.step c (d :: w ++ rest).head? = .next u event := hstep
        obtain ⟨mode, hleaves, hrun⟩ := ih h
        rw [List.getLast?_cons_cons]
        exact ⟨mode, hleaves, (State.run_of_next hstep' trace).trans hrun⟩

/-- A run that comes to the end of a text leaves a trace. -/
theorem State.exists_run_of_outcome {s t : State} {w : List Char} (h : s.outcome w = .ended t) :
    ∃ trace, s.run [] w = (.ended t, trace) :=
  ⟨(s.run [] w).2, Prod.ext h rfl⟩

/-- Behind a text that ends in code a scan goes on in code, or in a comment that begins with its
last slash. -/
theorem State.outcome_append {s t : State} {w : List Char} (h : s.outcome w = .ended t)
    (hcode : t.mode = .code) (rest : List Char) :
    ∃ mode, Leaves w.getLast? rest.head? mode ∧
      s.outcome (w ++ rest) = { t with mode }.outcome rest := by
  obtain ⟨trace, hrun⟩ := State.exists_run_of_outcome h
  obtain ⟨mode, hleaves, hmore⟩ := State.run_append hrun hcode rest
  refine ⟨mode, hleaves, ?_⟩
  rw [State.outcome, hmore, State.run_fst]

/-- In code nothing is open that hangs on the mode. -/
theorem State.Sound.withMode {t : State} (h : t.Sound) (hcode : t.mode = .code) (mode : Mode) :
    { t with mode }.Sound :=
  ⟨h.layered, fun _ => h.idle (by simp [hcode])⟩

/-- A scan never goes back. -/
theorem Moves.place_le {s : State} {cs : List Char} {config : State × List Char} {p : Position}
    (h : Moves (s, cs) config) (hs : s.Sound)
    (hp : p.Before (.ofPlace s.lexer.place) ∨ p = .ofPlace s.lexer.place) :
    p.Before (.ofPlace config.1.lexer.place) ∨ p = .ofPlace config.1.lexer.place := by
  induction h with
  | refl => exact hp
  | tail hmoves move ih =>
    cases move with
    | @read u v c rest event hstep =>
      have turn := hstep ▸ (Moves.sound hmoves hs).turn c rest.head?
      left
      rw [turn.place_next]
      exact Position.before_walk ih c

/-! ## Lexemes -/

/-- A body between the two ends of a string, of a line comment or of a template that holds no
interpolation. -/
inductive Lexeme : (opening closing body : Bytes) → Prop
  | single {body : Bytes} (h : StringBody '\x27' (Utf8.decode body)) : Lexeme [0x27] [0x27] body
  | double {body : Bytes} (h : StringBody '\x22' (Utf8.decode body)) : Lexeme [0x22] [0x22] body
  | lineComment {body : Bytes} (h : '\n' ∉ Utf8.decode body) : Lexeme [0x2f, 0x2f] [0x0a] body
  | template {body : Bytes} (h : StringBody '\x60' (Utf8.decode body))
      (ho : ¬ ['$', '\x7b'] <:+: Utf8.decode body) : Lexeme [0x60] [0x60] body

/-- Text between backquotes that opens no interpolation is the body of a template. -/
theorem StringBody.templateBody {w : List Char} (h : StringBody '\x60' w)
    (ho : ¬ ['$', '\x7b'] <:+: w) : TemplateBody w := by
  have hopening : ∀ {c : Char} {w : List Char}, ¬ ['$', '\x7b'] <:+: c :: w → NoOpening c w := by
    rintro c w ho ⟨rfl, hnext⟩
    obtain ⟨w, rfl⟩ := List.head?_eq_some_iff.1 hnext
    exact ho ⟨[], w, rfl⟩
  induction h with
  | nil => exact .nil
  | char hq hc _ ih => exact .char hq hc (hopening ho) (ih fun hw => ho (List.infix_cons hw))
  | escape _ ih =>
    have htail := fun hw => ho (List.infix_cons hw)
    exact .escape (hopening htail) (ih fun hw => htail (List.infix_cons hw))

theorem Utf8.decode_cons_ascii {b : UInt8} (hb : b < 0x80) (rest : Bytes) :
    Utf8.decode (b :: rest) = Char.ofNat b.toNat :: Utf8.decode rest :=
  Utf8.decode_append_ascii hb [] rest

/-- A body between two bytes that are characters by themselves. -/
theorem Utf8.decode_between {b d : UInt8} (hb : b < 0x80) (hd : d < 0x80) (p body s : Bytes) :
    Utf8.decode (p ++ ([b] ++ (body ++ ([d] ++ s)))) =
      Utf8.decode p ++
        (Char.ofNat b.toNat :: (Utf8.decode body ++ [Char.ofNat d.toNat]) ++ Utf8.decode s) := by
  simp only [List.singleton_append]
  rw [Utf8.decode_append_ascii hb, Utf8.decode_append_ascii hd]
  simp

/-- A mark, the body of a string and the mark again lead from code to code. -/
theorem StringBody.takes_marked {q : Char} {mode : Mode} {w : List Char} (h : StringBody q w)
    (hq : Quotes q mode) (stack : OpenStack) (rest : List Char) :
    Takes (State.In .code 0 stack) (q :: (w ++ [q])) rest (State.In .code 0 stack) :=
  .cons (State.In.steps_mark hq) ((h.takes hq stack _).append (.cons hq.steps_close .nil))

/-- A text that does not begin with a slash or a star is read from code. -/
theorem Leaves.eq_code {last next : Option Char} {mode : Mode} (h : Leaves last next mode)
    (hslash : next ≠ some '/') (hstar : next ≠ some '*') : mode = .code := by
  cases h with
  | code => rfl
  | lineComment _ follows => exact absurd follows hslash
  | blockComment _ follows => exact absurd follows hstar

/-- **A lexeme is read from code to code, and keeps the openers.** -/
theorem Lexeme.exists_takes {opening closing body : Bytes} (h : Lexeme opening closing body) :
    ∃ w, (∀ p s, Utf8.decode (p ++ (opening ++ (body ++ (closing ++ s)))) =
        Utf8.decode p ++ (w ++ Utf8.decode s)) ∧
      ∀ {last rest mode}, Leaves last (w ++ rest).head? mode → ∀ stack,
        Takes (State.In mode 0 stack) w rest (State.In .code 0 stack) := by
  cases h with
  | single h =>
    refine ⟨_, fun p s => Utf8.decode_between (by decide) (by decide) p body s, ?_⟩
    intro last rest mode hleaves stack
    obtain rfl := hleaves.eq_code (by simp) (by simp)
    exact h.takes_marked .single stack rest
  | double h =>
    refine ⟨_, fun p s => Utf8.decode_between (by decide) (by decide) p body s, ?_⟩
    intro last rest mode hleaves stack
    obtain rfl := hleaves.eq_code (by simp) (by simp)
    exact h.takes_marked .double stack rest
  | template h ho =>
    refine ⟨_, fun p s => Utf8.decode_between (by decide) (by decide) p body s, ?_⟩
    intro last rest mode hleaves stack
    obtain rfl := hleaves.eq_code (by simp) (by simp)
    exact .cons State.In.steps_templateMark
      (((h.templateBody ho).takes stack _).append (.cons Template.steps_close .nil))
  | lineComment h =>
    refine ⟨'/' :: '/' :: (Utf8.decode body ++ ['\n']), fun p s => ?_, ?_⟩
    · change Utf8.decode (p ++ ([0x2f] ++ (0x2f :: body ++ ([0x0a] ++ s)))) = _
      rw [Utf8.decode_between (by decide) (by decide), Utf8.decode_cons_ascii (by decide)]
      rfl
    · intro last rest mode hleaves stack
      -- The comment has begun a character earlier if there is a slash in front of it.
      have hbody : Takes (State.In .lineComment 0 stack) ('/' :: Utf8.decode body ++ ['\n']) rest
          (State.In .code 0 stack) :=
        (takes_lineComment (by simpa using h) stack _).append
          (.cons State.In.steps_endLineComment .nil)
      cases hleaves with
      | code => exact .cons State.In.steps_beginLineComment hbody
      | lineComment => exact .cons (State.In.steps_lineComment (by decide)) hbody
      | blockComment _ follows => simp at follows

/-- A scan of a prefix that ends in code, of a lexeme and of what follows goes on in code, with the
openers of the prefix, at the end of the lexeme. -/
theorem Lexeme.exists_outcome_eq {opening closing body p : Bytes} {t : State}
    (h : Lexeme opening closing body) (hp : State.start.outcome (Utf8.decode p) = .ended t)
    (hcode : t.mode = .code) (s : Bytes) :
    ∃ u : State, State.In .code 0 t.stack u ∧ u.Sound ∧
      ((Position.ofPlace t.lexer.place).Before (.ofPlace u.lexer.place) ∨
        Position.ofPlace t.lexer.place = .ofPlace u.lexer.place) ∧
      State.start.outcome (Utf8.decode (p ++ (opening ++ (body ++ (closing ++ s))))) =
        u.outcome (Utf8.decode s) := by
  have hsound := State.sound_of_outcome hp
  obtain ⟨w, hdecode, htakes⟩ := h.exists_takes
  obtain ⟨mode, hleaves, houtcome⟩ := State.outcome_append hp hcode (w ++ Utf8.decode s)
  have hdepth : t.depth = 0 := hsound.idle (by simp [hcode])
  obtain ⟨u, hmoves, hu⟩ := htakes hleaves t.stack { t with mode } ⟨rfl, hdepth, rfl⟩
  have hsound' := hsound.withMode hcode mode
  refine ⟨u, hu, hmoves.sound hsound', hmoves.place_le hsound' (.inr rfl), ?_⟩
  rw [hdecode, houtcome]
  exact hmoves.outcome_eq

/-- Two states in code differ for a lexer in nothing it looks at. -/
theorem State.In.alike_of_code {depth : Nat} {stack stack' : OpenStack} {s t : State}
    (hs : State.In .code depth stack s) (ht : State.In .code depth stack' t) :
    s.lexer.Alike t.lexer :=
  ⟨hs.mode_eq.trans ht.mode_eq.symm, hs.depth_eq.trans ht.depth_eq.symm,
    by simp [hs.mode_eq, Mode.quoting]⟩

/-- **What stands in a string, a line comment or the text of a template does not count.**  Behind
any prefix that a scan reads to code and before any further text, two bodies of one kind of lexeme
lead to verdicts of one class, with openers of the same kinds; of the openers of the prefix both
hold the same, and those after them stand behind the prefix. -/
theorem scan_blind_to_bodies {opening closing body body' p : Bytes} {t : State}
    (h : Lexeme opening closing body) (h' : Lexeme opening closing body')
    (hp : State.start.outcome (Utf8.decode p) = .ended t) (hcode : t.mode = .code) (s : Bytes) :
    let v := scan (p ++ (opening ++ (body ++ (closing ++ s))))
    let v' := scan (p ++ (opening ++ (body' ++ (closing ++ s))))
    v.kind = v'.kind ∧ v.opened.map (·.kind) = v'.opened.map (·.kind) ∧
      ∃ kept later later' : List Opener, kept <+: t.stack.entries ∧
        v.opened = kept ++ later ∧ v'.opened = kept ++ later' ∧
        ∀ o ∈ later ++ later', (Position.mk t.line t.column).Before o.position := by
  intro v v'
  obtain ⟨u, hu, hsound, hplace, houtcome⟩ := h.exists_outcome_eq hp hcode s
  obtain ⟨u', hu', hsound', hplace', houtcome'⟩ := h'.exists_outcome_eq hp hcode s
  have hagree := State.outcome_agree hsound hsound' (hu.alike_of_code hu')
    (hu.stack_eq.trans hu'.stack_eq.symm) hplace hplace' (Utf8.decode s)
  rw [hu.stack_eq, ← houtcome, ← houtcome', ← scan_eq_verdict, ← scan_eq_verdict] at hagree
  have hkinds := hagree.kinds_eq
  obtain ⟨hkind, kept, later, later', hkept, hv, hv', -, hlater⟩ := hagree
  exact ⟨hkind, hkinds, kept, later, later', hkept, hv, hv', hlater⟩

/-- Behind an opening brace, a string of a closing brace and a string of its own mark and an opening
brace, before one brace more. -/
theorem scan_blind_to_bodies_braces :
    Lexeme [0x27] [0x27] [0x7d] ∧ Lexeme [0x27] [0x27] [0x5c, 0x27, 0x7b] ∧
      (scan [0x7b, 0x27, 0x7d, 0x27, 0x7b]).kind = .unmatchedOpen ∧
      (scan [0x7b, 0x27, 0x7d, 0x27, 0x7b]).kind =
        (scan [0x7b, 0x27, 0x5c, 0x27, 0x7b, 0x27, 0x7b]).kind ∧
      (scan [0x7b, 0x27, 0x7d, 0x27, 0x7b]).opened.map (·.kind) =
        (scan [0x7b, 0x27, 0x5c, 0x27, 0x7b, 0x27, 0x7b]).opened.map (·.kind) := by
  have hclosing : Lexeme [0x27] [0x27] [0x7d] := .single (.char (by decide) (by decide) .nil)
  have hopening : Lexeme [0x27] [0x27] [0x5c, 0x27, 0x7b] :=
    .single (.escape (.char (by decide) (by decide) .nil))
  have hp : State.start.outcome (Utf8.decode [0x7b]) =
      .ended { column := 1, stack := ⟨[⟨⟨1, 1⟩, .brace⟩]⟩ } := rfl
  obtain ⟨hkind, hkinds, -⟩ := scan_blind_to_bodies hclosing hopening hp rfl [0x7b]
  exact ⟨hclosing, hopening, by decide, hkind, hkinds⟩

end BraceBalance
