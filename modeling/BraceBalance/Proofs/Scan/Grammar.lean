import BraceBalance.Proofs.Scan.Moves

/-!
# Proofs/Scan/Grammar — well-formed sources are accepted

`Code` is a grammar of sources whose braces match: plain characters, strings, comments, templates
with interpolations in them, and blocks of code between braces, nested to any depth.  A derivation
says nothing of modes, openers or lookahead.  A scan reads every derived text from code to code and
keeps the openers it has (`Code.takes`), whatever text follows, so it finds every brace of a
derived source matched.
-/

namespace BraceBalance

/-! ## The grammar

Each rule but the empty one adds an item in front of what follows, and what an item may not be
followed by is a condition of its rule. -/

/-- A character that means nothing in code: no brace, no quotation mark and no slash. -/
def Plain (c : Char) : Prop :=
  c ≠ '\x7b' ∧ c ≠ '\x7d' ∧ c ≠ '\x27' ∧ c ≠ '\x22' ∧ c ≠ '\x60' ∧ c ≠ '/'

/-- `c` is no `$` that the text `rest` behind it makes the begin of an interpolation. -/
def NoOpening (c : Char) (rest : List Char) : Prop := ¬ (c = '$' ∧ rest.head? = some '\x7b')

/-- What may stand between two marks `q` of a string. -/
inductive StringBody (q : Char) : List Char → Prop
  | nil : StringBody q []
  | char {c : Char} {w : List Char} (hq : c ≠ q) (hc : c ≠ '\\') (h : StringBody q w) :
      StringBody q (c :: w)
  | escape {c : Char} {w : List Char} (h : StringBody q w) : StringBody q ('\\' :: c :: w)

/-- What may stand between `${` and the brace that closes it. -/
inductive InterpolationBody : List Char → Prop
  | nil : InterpolationBody []
  | char {c : Char} {w : List Char} (hc : c ≠ '\x7d') (ho : NoOpening c w)
      (h : InterpolationBody w) : InterpolationBody (c :: w)
  | nested {inner w : List Char} (hi : InterpolationBody inner) (h : InterpolationBody w) :
      InterpolationBody ('$' :: '\x7b' :: (inner ++ '\x7d' :: w))

/-- What may stand between the two marks of a template. -/
inductive TemplateBody : List Char → Prop
  | nil : TemplateBody []
  | char {c : Char} {w : List Char} (hq : c ≠ '\x60') (hc : c ≠ '\\') (ho : NoOpening c w)
      (h : TemplateBody w) : TemplateBody (c :: w)
  | escape {c : Char} {w : List Char} (ho : NoOpening c w) (h : TemplateBody w) :
      TemplateBody ('\\' :: c :: w)
  | interpolation {inner w : List Char} (hi : InterpolationBody inner) (h : TemplateBody w) :
      TemplateBody ('$' :: '\x7b' :: (inner ++ '\x7d' :: w))

/-- Code whose braces match. -/
inductive Code : List Char → Prop
  | nil : Code []
  | plain {c : Char} {w : List Char} (hc : Plain c) (h : Code w) : Code (c :: w)
  | slash {c : Char} {w : List Char} (hc : Plain c) (hs : c ≠ '*') (h : Code w) :
      Code ('/' :: c :: w)
  | block {inner w : List Char} (hi : Code inner) (h : Code w) :
      Code ('\x7b' :: (inner ++ '\x7d' :: w))
  | quoted {q : Char} {body w : List Char} (hq : q = '\x27' ∨ q = '\x22') (hb : StringBody q body)
      (h : Code w) : Code (q :: (body ++ q :: w))
  | lineComment {body w : List Char} (hb : '\n' ∉ body) (h : Code w) :
      Code ('/' :: '/' :: (body ++ '\n' :: w))
  | blockComment {c : Char} {body w : List Char} (hb : ¬ ['*', '/'] <:+: body)
      (hf : body.head? ≠ some '/') (hc : Plain c) (hs : c ≠ '*') (h : Code w) :
      Code ('/' :: '*' :: (body ++ '*' :: '/' :: c :: w))
  | template {body w : List Char} (hb : TemplateBody body) (h : Code w) :
      Code ('\x60' :: (body ++ '\x60' :: w))

/-! ## Reading a text from one kind of state to another

A character is read with the next one in sight, so a text is read with what stands behind it. -/

/-- A state in this mode, at this depth and with these openers. -/
structure State.In (mode : Mode) (depth : Nat) (stack : OpenStack) (s : State) : Prop where
  mode_eq : s.mode = mode
  depth_eq : s.depth = depth
  stack_eq : s.stack = stack

/-- Such a state whose next character no backslash quotes. -/
structure State.Fresh (mode : Mode) (depth : Nat) (stack : OpenStack) (s : State) : Prop
    extends State.In mode depth stack s where
  escaped_eq : s.escaped = false

/-- Such a state whose next character a backslash quotes. -/
structure State.Escaped (mode : Mode) (depth : Nat) (stack : OpenStack) (s : State) : Prop
    extends State.In mode depth stack s where
  escaped_eq : s.escaped = true

/-- Reading `c`, with `next` in sight, takes every state with `P` to one with `Q`. -/
def Steps (P : State → Prop) (c : Char) (next : Option Char) (Q : State → Prop) : Prop :=
  ∀ s, P s → ∃ t event, s.step c next = .next t event ∧ Q t

/-- Reading `w`, with `rest` behind it, takes every state with `P` to one with `Q`. -/
def Takes (P : State → Prop) (w rest : List Char) (Q : State → Prop) : Prop :=
  ∀ s, P s → ∃ t, Moves (s, w ++ rest) (t, rest) ∧ Q t

/-- More may be known before the character, and less be asked after it. -/
theorem Steps.imp {P P' Q Q' : State → Prop} {c : Char} {next : Option Char}
    (h : Steps P c next Q) (hP : ∀ s, P' s → P s) (hQ : ∀ s, Q s → Q' s) : Steps P' c next Q' := by
  intro s hs
  obtain ⟨t, event, hstep, ht⟩ := h s (hP s hs)
  exact ⟨t, event, hstep, hQ t ht⟩

namespace Takes

variable {P Q R : State → Prop} {w w' rest : List Char} {c : Char}

theorem nil : Takes P [] rest P := fun s hs => ⟨s, .refl, hs⟩

/-- A text is read by its first character and then by the rest, which the first one has in sight. -/
theorem cons (h : Steps P c (w ++ rest).head? Q) (h' : Takes Q w rest R) :
    Takes P (c :: w) rest R := by
  intro s hs
  obtain ⟨t, event, hstep, ht⟩ := h s hs
  obtain ⟨u, hmoves, hu⟩ := h' t ht
  exact ⟨u, .head (.read hstep) hmoves, hu⟩

/-- A text is read by its first part and then by the second. -/
theorem append (h : Takes P w (w' ++ rest) Q) (h' : Takes Q w' rest R) :
    Takes P (w ++ w') rest R := by
  intro s hs
  obtain ⟨t, hmoves, ht⟩ := h s hs
  obtain ⟨u, hmoves', hu⟩ := h' t ht
  rw [List.append_assoc]
  exact ⟨u, hmoves.trans hmoves', hu⟩

/-- A property that names some opener is met by meeting it for each. -/
theorem of_forall {P : Opener → State → Prop} (h : ∀ o, Takes (P o) w rest Q) :
    Takes (fun s => ∃ o, P o s) w rest Q :=
  fun s ⟨o, hs⟩ => h o s hs

end Takes

/-- The marks of the strings that are not templates, and the modes they begin. -/
inductive Quotes : Char → Mode → Prop
  | single : Quotes '\x27' .singleQuoted
  | double : Quotes '\x22' .doubleQuoted

/-! ## One character -/

namespace State.In

variable {mode : Mode} {depth : Nat} {stack : OpenStack} {c : Char} {next : Option Char}

/-- Only a line comment ends with its line. -/
theorem steps_newLine (hm : mode ≠ .lineComment) :
    Steps (In mode depth stack) '\n' next (Fresh mode depth stack) := by
  rintro s ⟨rfl, hd, hst⟩
  exact ⟨s.newLine, none, rfl, ⟨if_neg hm, hd, hst⟩, rfl⟩

/-! ### In code -/

/-- A character that opens no comment and no string and is no brace leaves code as it is. -/
theorem steps_inert (hn : c ≠ '\n') (hb : c ≠ '\\') (ho : c ≠ '\x7b') (hcl : c ≠ '\x7d')
    (hq : Mode.opened? c = none) (hs : c = '/' → next ≠ some '/' ∧ next ≠ some '*') :
    Steps (In .code 0 stack) c next (In .code 0 stack) := by
  rintro ⟨line, column, _, escaped, _, _⟩ ⟨rfl, rfl, rfl⟩
  have hline : ¬ (c = '/' ∧ next = some '/') := fun h => (hs h.1).1 h.2
  have hblock : ¬ (c = '/' ∧ next = some '*') := fun h => (hs h.1).2 h.2
  refine ⟨⟨line, column + 1, .code, escaped, 0, _⟩, none, ?_, rfl, rfl, rfl⟩
  simp only [State.step, State.stepInLine, State.stepCode, hn, hline, hblock, hb, hq, ho, hcl,
    false_and, if_false]

theorem steps_backslash : Steps (In .code 0 stack) '\\' next (In .code 0 stack) := by
  rintro ⟨line, column, _, _ | _, _, _⟩ ⟨rfl, rfl, rfl⟩
  · exact ⟨_, _, rfl, rfl, rfl, rfl⟩
  · exact ⟨_, _, rfl, rfl, rfl, rfl⟩

theorem steps_plain (hc : Plain c) : Steps (In .code 0 stack) c next (In .code 0 stack) := by
  obtain ⟨ho, hcl, hsq, hdq, ht, hs⟩ := hc
  by_cases hn : c = '\n'
  · subst hn
    have hm : Mode.code ≠ .lineComment := nofun
    exact (steps_newLine hm).imp (fun _ => id) fun _ => Fresh.toIn
  by_cases hb : c = '\\'
  · exact hb ▸ steps_backslash
  · exact steps_inert hn hb ho hcl (by simp [Mode.opened?, hsq, hdq, ht]) (absurd · hs)

/-- A slash that begins no comment leaves code as it is. -/
theorem steps_slash (hl : next ≠ some '/') (hb : next ≠ some '*') :
    Steps (In .code 0 stack) '/' next (In .code 0 stack) :=
  steps_inert (by decide) (by decide) (by decide) (by decide) rfl fun _ => ⟨hl, hb⟩

/-- A brace is put on top of what is open. -/
theorem steps_openBrace :
    Steps (In .code 0 stack) '\x7b' next (fun s => ∃ o, In .code 0 (stack.push o) s) := by
  rintro ⟨line, column, _, escaped, _, _⟩ ⟨rfl, rfl, rfl⟩
  exact ⟨_, _, rfl, _, rfl, rfl, rfl⟩

/-- A closing brace takes the newest brace. -/
theorem steps_closeBrace (o : Opener) :
    Steps (In .code 0 (stack.push o)) '\x7d' next (In .code 0 stack) := by
  rintro ⟨line, column, _, escaped, _, _⟩ ⟨rfl, rfl, rfl⟩
  exact ⟨_, _, rfl, rfl, rfl, rfl⟩

/-- A quotation mark begins a string, with no backslash pending. -/
theorem steps_mark {q : Char} (hq : Quotes q mode) :
    Steps (In .code 0 stack) q next (Fresh mode 0 stack) := by
  rintro ⟨line, column, _, escaped, _, _⟩ ⟨rfl, rfl, rfl⟩
  cases hq with
  | single => exact ⟨_, _, rfl, ⟨rfl, rfl, rfl⟩, rfl⟩
  | double => exact ⟨_, _, rfl, ⟨rfl, rfl, rfl⟩, rfl⟩

theorem steps_templateMark : Steps (In .code 0 stack) '\x60' next (Fresh .template 0 stack) := by
  rintro ⟨line, column, _, escaped, _, _⟩ ⟨rfl, rfl, rfl⟩
  exact ⟨_, _, rfl, ⟨rfl, rfl, rfl⟩, rfl⟩

/-! ### In comments

Comments begin and end by two characters, of which the second one is read in the mode that the first
one leads to. -/

/-- Two slashes begin a comment; the second one is read in it. -/
theorem steps_beginLineComment :
    Steps (In .code 0 stack) '/' (some '/') (In .lineComment 0 stack) := by
  rintro ⟨line, column, _, escaped, _, _⟩ ⟨rfl, rfl, rfl⟩
  exact ⟨_, _, rfl, rfl, rfl, rfl⟩

theorem steps_lineComment (hn : c ≠ '\n') :
    Steps (In .lineComment 0 stack) c next (In .lineComment 0 stack) := by
  rintro ⟨line, column, _, escaped, _, _⟩ ⟨rfl, rfl, rfl⟩
  exact ⟨_, _, if_neg hn, rfl, rfl, rfl⟩

theorem steps_endLineComment : Steps (In .lineComment 0 stack) '\n' next (In .code 0 stack) := by
  rintro ⟨line, column, _, escaped, _, _⟩ ⟨rfl, rfl, rfl⟩
  exact ⟨_, _, rfl, rfl, rfl, rfl⟩

/-- So do a slash and a star. -/
theorem steps_beginBlockComment :
    Steps (In .code 0 stack) '/' (some '*') (In .blockComment 0 stack) := by
  rintro ⟨line, column, _, escaped, _, _⟩ ⟨rfl, rfl, rfl⟩
  exact ⟨_, _, rfl, rfl, rfl, rfl⟩

/-- A comment goes on up to a star with a slash behind it. -/
theorem steps_blockComment (hc : ¬ (c = '*' ∧ next = some '/')) :
    Steps (In .blockComment 0 stack) c next (In .blockComment 0 stack) := by
  by_cases hn : c = '\n'
  · subst hn
    have hm : Mode.blockComment ≠ .lineComment := nofun
    exact (steps_newLine hm).imp (fun _ => id) fun _ => Fresh.toIn
  · rintro ⟨line, column, _, escaped, _, _⟩ ⟨rfl, rfl, rfl⟩
    refine ⟨⟨line, column + 1, .blockComment, escaped, 0, _⟩, none, ?_, rfl, rfl, rfl⟩
    simp only [State.step, State.stepInLine, hn, hc, if_false]

/-- There it ends, with the slash read in code. -/
theorem steps_endBlockComment :
    Steps (In .blockComment 0 stack) '*' (some '/') (In .code 0 stack) := by
  rintro ⟨line, column, _, escaped, _, _⟩ ⟨rfl, rfl, rfl⟩
  exact ⟨_, _, rfl, rfl, rfl, rfl⟩

end State.In

/-! ### In strings -/

namespace Quotes

variable {q : Char} {mode : Mode} {depth : Nat} {stack : OpenStack} {c : Char}
  {next : Option Char}

/-- A string is no line comment, so it does not end with its line. -/
theorem ne_lineComment (hq : Quotes q mode) : mode ≠ .lineComment := by
  cases hq <;> nofun

/-- Between two marks a character in a line does what `State.stepQuoted` says. -/
theorem step_eq (hq : Quotes q mode) {s : State} (hm : s.mode = mode) (hn : c ≠ '\n') :
    s.step c next = { s with column := s.column + 1 }.stepQuoted q c := by
  cases hq with
  | single => simp only [State.step, State.stepInLine, hn, hm, if_false]
  | double => simp only [State.step, State.stepInLine, hn, hm, if_false]

/-- A character that is neither the mark nor a backslash is passed. -/
theorem steps_char (hq : Quotes q mode) (hc : c ≠ q) (hb : c ≠ '\\') :
    Steps (State.Fresh mode depth stack) c next (State.Fresh mode depth stack) := by
  by_cases hn : c = '\n'
  · subst hn
    exact (State.In.steps_newLine hq.ne_lineComment).imp (fun _ => State.Fresh.toIn) fun _ => id
  · rintro s ⟨⟨hm, hd, hst⟩, he⟩
    rw [hq.step_eq hm hn, State.stepQuoted, if_neg fun h => hb h.1, if_neg fun h => hc h.1]
    exact ⟨_, none, rfl, ⟨hm, hd, hst⟩, rfl⟩

theorem steps_backslash (hq : Quotes q mode) :
    Steps (State.Fresh mode depth stack) '\\' next (State.Escaped mode depth stack) := by
  rintro s ⟨⟨hm, hd, hst⟩, he⟩
  rw [hq.step_eq hm (by decide), State.stepQuoted, if_pos ⟨rfl, he⟩]
  exact ⟨_, none, rfl, ⟨hm, hd, hst⟩, rfl⟩

/-- So is any character that a backslash quotes. -/
theorem steps_escaped (hq : Quotes q mode) :
    Steps (State.Escaped mode depth stack) c next (State.Fresh mode depth stack) := by
  by_cases hn : c = '\n'
  · subst hn
    exact (State.In.steps_newLine hq.ne_lineComment).imp (fun _ => State.Escaped.toIn) fun _ => id
  · rintro s ⟨⟨hm, hd, hst⟩, he⟩
    rw [hq.step_eq hm hn, State.stepQuoted, if_neg (by simp [he]), if_neg (by simp [he])]
    exact ⟨_, none, rfl, ⟨hm, hd, hst⟩, rfl⟩

theorem steps_close (hq : Quotes q mode) :
    Steps (State.Fresh mode depth stack) q next (State.In .code depth stack) := by
  have hn : q ≠ '\n' := by cases hq <;> decide
  have hb : q ≠ '\\' := by cases hq <;> decide
  rintro s ⟨⟨hm, hd, hst⟩, he⟩
  rw [hq.step_eq hm hn, State.stepQuoted, if_neg fun h => hb h.1, if_pos ⟨rfl, he⟩]
  exact ⟨_, none, rfl, rfl, hd, hst⟩

end Quotes

/-! ### In templates

Within an interpolation only three characters count: the two that begin another one, and the brace
that closes it. -/

namespace Template

variable {depth : Nat} {stack : OpenStack} {c : Char} {next : Option Char}

/-- In a template a character in a line does what `State.stepTemplate` says. -/
theorem step_eq {s : State} (hm : s.mode = .template) (hn : c ≠ '\n') :
    s.step c next = { s with column := s.column + 1 }.stepTemplate c next := by
  simp only [State.step, State.stepInLine, hn, hm, if_false]

/-- A character that no case of a template is about only ends the reach of a backslash. -/
theorem step_inert {s : State} (hm : s.mode = .template) (hn : c ≠ '\n')
    (hb : ¬ (c = '\\' ∧ s.escaped = false))
    (hq : ¬ (c = '\x60' ∧ s.escaped = false ∧ s.depth = 0))
    (ho : ¬ (c = '$' ∧ next = some '\x7b')) (hc : ¬ (c = '\x7d' ∧ 0 < s.depth)) :
    s.step c next = .next { s with column := s.column + 1, escaped := false } none := by
  rw [step_eq hm hn, State.stepTemplate, if_neg hb, if_neg hq, if_neg ho, if_neg hc]

theorem steps_newLine :
    Steps (State.In .template depth stack) '\n' next (State.Fresh .template depth stack) :=
  State.In.steps_newLine nofun

/-- A character of the text is passed, unless it begins an interpolation. -/
theorem steps_char (hq : c ≠ '\x60') (hb : c ≠ '\\') (ho : ¬ (c = '$' ∧ next = some '\x7b')) :
    Steps (State.Fresh .template 0 stack) c next (State.Fresh .template 0 stack) := by
  by_cases hn : c = '\n'
  · subst hn
    exact steps_newLine.imp (fun _ => State.Fresh.toIn) fun _ => id
  · rintro s ⟨⟨hm, hd, hst⟩, he⟩
    exact ⟨_, none, step_inert hm hn (fun h => hb h.1) (fun h => hq h.1) ho (by simp [hd]),
      ⟨hm, hd, hst⟩, rfl⟩

theorem steps_backslash :
    Steps (State.Fresh .template 0 stack) '\\' next (State.Escaped .template 0 stack) := by
  rintro s ⟨⟨hm, hd, hst⟩, he⟩
  rw [step_eq hm (by decide), State.stepTemplate, if_pos ⟨rfl, he⟩]
  exact ⟨_, none, rfl, ⟨hm, hd, hst⟩, rfl⟩

/-- A backslash does not keep an interpolation from beginning, so this is asked here too. -/
theorem steps_escaped (ho : ¬ (c = '$' ∧ next = some '\x7b')) :
    Steps (State.Escaped .template 0 stack) c next (State.Fresh .template 0 stack) := by
  by_cases hn : c = '\n'
  · subst hn
    exact steps_newLine.imp (fun _ => State.Escaped.toIn) fun _ => id
  · rintro s ⟨⟨hm, hd, hst⟩, he⟩
    exact ⟨_, none, step_inert hm hn (by simp [he]) (by simp [he]) ho (by simp [hd]),
      ⟨hm, hd, hst⟩, rfl⟩

theorem steps_close :
    Steps (State.Fresh .template 0 stack) '\x60' next (State.In .code 0 stack) := by
  rintro s ⟨⟨hm, hd, hst⟩, he⟩
  rw [step_eq hm (by decide), State.stepTemplate, if_neg (by simp), if_pos ⟨rfl, he, hd⟩]
  exact ⟨_, none, rfl, rfl, hd, hst⟩

/-- An interpolation is put on top; the brace that belongs to it is read next, within. -/
theorem steps_openInterpolation :
    Steps (State.In .template depth stack) '$' (some '\x7b') fun s =>
      ∃ o, o.kind = .interpolation ∧ State.In .template (depth + 1) (stack.push o) s := by
  rintro ⟨line, column, _, escaped, _, _⟩ ⟨rfl, rfl, rfl⟩
  exact ⟨_, _, rfl, _, rfl, rfl, rfl, rfl⟩

/-- Inside an interpolation even quotation marks and backslashes do nothing. -/
theorem steps_interpolated (hc : c ≠ '\x7d') (ho : ¬ (c = '$' ∧ next = some '\x7b')) :
    Steps (State.In .template (depth + 1) stack) c next
      (State.In .template (depth + 1) stack) := by
  by_cases hn : c = '\n'
  · subst hn
    exact steps_newLine.imp (fun _ => id) fun _ => State.Fresh.toIn
  rintro s ⟨hm, hd, hst⟩
  by_cases hb : c = '\\' ∧ s.escaped = false
  · rw [step_eq hm hn, State.stepTemplate, if_pos hb]
    exact ⟨_, none, rfl, hm, hd, hst⟩
  · exact ⟨_, none, step_inert hm hn hb (by simp [hd]) ho fun h => hc h.1, hm, hd, hst⟩

/-- A closing brace takes the newest interpolation, and leaves no backslash pending. -/
theorem steps_closeInterpolation {o : Opener} (ho : o.kind = .interpolation) :
    Steps (State.In .template (depth + 1) (stack.push o)) '\x7d' next
      (State.Fresh .template depth stack) := by
  rintro s ⟨hm, hd, hst⟩
  rw [step_eq hm (by decide), State.stepTemplate, if_neg (by simp), if_neg (by simp),
    if_neg (by simp), if_pos ⟨rfl, by simp [hd]⟩, hst, OpenStack.removeNearest?_push ho]
  exact ⟨_, _, rfl, ⟨hm, by simp [hd], rfl⟩, rfl⟩

end Template

/-! ## Whole texts -/

/-- A slash that begins no comment, the character after it, and what follows. -/
theorem takes_slash {c : Char} {w rest : List Char} {stack : OpenStack} {Q : State → Prop}
    (hc : Plain c) (hs : c ≠ '*') (hw : Takes (State.In .code 0 stack) w rest Q) :
    Takes (State.In .code 0 stack) ('/' :: c :: w) rest Q := by
  have hslash : some c ≠ some '/' := by simpa using hc.2.2.2.2.2
  have hstar : some c ≠ some '*' := by simpa using hs
  exact .cons (State.In.steps_slash hslash hstar) (.cons (State.In.steps_plain hc) hw)

/-- The body of a string is read from mark to mark. -/
theorem StringBody.takes {q : Char} {mode : Mode} {w : List Char} (h : StringBody q w)
    (hq : Quotes q mode) (stack : OpenStack) (rest : List Char) :
    Takes (State.Fresh mode 0 stack) w rest (State.Fresh mode 0 stack) := by
  induction h with
  | nil => exact .nil
  | char hc hb _ ih => exact .cons (hq.steps_char hc hb) ih
  | escape _ ih => exact .cons hq.steps_backslash (.cons hq.steps_escaped ih)

/-- A line comment is read to the end of its line. -/
theorem takes_lineComment {w : List Char} (h : '\n' ∉ w) (stack : OpenStack) (rest : List Char) :
    Takes (State.In .lineComment 0 stack) w rest (State.In .lineComment 0 stack) := by
  induction w with
  | nil => exact .nil
  | cons c w ih =>
    rw [List.mem_cons, not_or] at h
    exact .cons (State.In.steps_lineComment (Ne.symm h.1)) (ih h.2)

/-- A body without `*/` ends no comment, not even together with the `*` behind it. -/
theorem not_ends_of_body {c : Char} {w : List Char} (h : ¬ ['*', '/'] <:+: c :: w)
    (rest : List Char) : ¬ (c = '*' ∧ (w ++ '*' :: rest).head? = some '/') := by
  rintro ⟨rfl, hnext⟩
  cases w with
  | nil => simp at hnext
  | cons d w =>
    obtain rfl : d = '/' := by simpa using hnext
    exact h ⟨[], w, rfl⟩

/-- The body of a block comment, read up to the `*` that begins its end. -/
theorem takes_blockComment {w : List Char} (h : ¬ ['*', '/'] <:+: w) (stack : OpenStack)
    (rest : List Char) :
    Takes (State.In .blockComment 0 stack) w ('*' :: rest)
      (State.In .blockComment 0 stack) := by
  induction w with
  | nil => exact .nil
  | cons c w ih =>
    exact .cons (State.In.steps_blockComment (not_ends_of_body h rest))
      (ih fun hw => h (List.infix_cons hw))

/-- What follows a text that opens no interpolation does not make it open one. -/
theorem NoOpening.append {c : Char} {w rest : List Char} (h : NoOpening c w)
    (hrest : rest.head? ≠ some '\x7b') : ¬ (c = '$' ∧ (w ++ rest).head? = some '\x7b') := by
  rintro ⟨hc, hw⟩
  cases w with
  | nil => exact hrest hw
  | cons d w => exact h ⟨hc, hw⟩

/-- An interpolation around a text that keeps the openers, and what follows it. -/
theorem takes_interpolation {inner w rest : List Char} {depth : Nat} {stack : OpenStack}
    {Q : State → Prop}
    (hinner : ∀ o, Takes (State.In .template (depth + 1) (stack.push o)) inner
      ('\x7d' :: (w ++ rest)) (State.In .template (depth + 1) (stack.push o)))
    (hw : Takes (State.Fresh .template depth stack) w rest Q) :
    Takes (State.In .template depth stack) ('$' :: '\x7b' :: (inner ++ '\x7d' :: w)) rest Q := by
  refine .cons Template.steps_openInterpolation (.of_forall fun o s ⟨ho, hs⟩ => ?_)
  have hbrace : ¬ ('\x7b' = '$' ∧ ((inner ++ '\x7d' :: w) ++ rest).head? = some '\x7b') :=
    fun h => absurd h.1 (by decide)
  have hclose := Takes.cons (Template.steps_closeInterpolation ho) hw
  exact Takes.cons (Template.steps_interpolated (by decide) hbrace)
    ((hinner o).append hclose) s hs

/-- What stands in an interpolation is read to the brace that closes it, by induction on its
derivation. -/
theorem InterpolationBody.takes {w : List Char} (h : InterpolationBody w) (depth : Nat)
    (stack : OpenStack) (rest : List Char) :
    Takes (State.In .template (depth + 1) stack) w ('\x7d' :: rest)
      (State.In .template (depth + 1) stack) := by
  induction h generalizing depth stack rest with
  | nil => exact .nil
  | char hc ho _ ih =>
    exact .cons (Template.steps_interpolated hc (ho.append (by simp))) (ih depth stack rest)
  | nested _ _ ihi ih =>
    exact takes_interpolation (fun o => ihi (depth + 1) (stack.push o) _)
      fun s hs => ih depth stack rest s hs.toIn

/-- What stands in a template is read to the mark that closes it, and keeps the openers. -/
theorem TemplateBody.takes {w : List Char} (h : TemplateBody w) (stack : OpenStack)
    (rest : List Char) :
    Takes (State.Fresh .template 0 stack) w ('\x60' :: rest) (State.Fresh .template 0 stack) := by
  induction h with
  | nil => exact .nil
  | char hq hc ho _ ih => exact .cons (Template.steps_char hq hc (ho.append (by simp))) ih
  | escape ho _ ih =>
    exact .cons Template.steps_backslash (.cons (Template.steps_escaped (ho.append (by simp))) ih)
  | interpolation hi _ ih =>
    exact fun s hs =>
      takes_interpolation (fun o => hi.takes 0 (stack.push o) _) ih s hs.toIn

/-- **A scan reads code whose braces match from code to code, and keeps its openers.** -/
theorem Code.takes {w : List Char} (h : Code w) (stack : OpenStack) (rest : List Char) :
    Takes (State.In .code 0 stack) w rest (State.In .code 0 stack) := by
  induction h generalizing stack rest with
  | nil => exact .nil
  | plain hc _ ih => exact .cons (State.In.steps_plain hc) (ih stack rest)
  | slash hc hs _ ih => exact takes_slash hc hs (ih stack rest)
  | block _ _ ihi ih =>
    refine .cons State.In.steps_openBrace (.of_forall fun o => ?_)
    exact (ihi (stack.push o) _).append (.cons (State.In.steps_closeBrace o) (ih stack rest))
  | quoted hq hb _ ih =>
    rcases hq with rfl | rfl
    · exact .cons (State.In.steps_mark .single)
        ((hb.takes .single stack _).append (.cons (Quotes.steps_close .single) (ih stack rest)))
    · exact .cons (State.In.steps_mark .double)
        ((hb.takes .double stack _).append (.cons (Quotes.steps_close .double) (ih stack rest)))
  | lineComment hb _ ih =>
    have hslash : '/' ≠ '\n' := by decide
    refine .cons State.In.steps_beginLineComment (.cons (State.In.steps_lineComment hslash) ?_)
    exact (takes_lineComment hb stack _).append
      (.cons State.In.steps_endLineComment (ih stack rest))
  | @blockComment c body w hb hf hc hs _ ih =>
    -- The `*` of the opening is no end of the comment.
    have hstar : ¬ ('*' = '*' ∧ ((body ++ '*' :: '/' :: c :: w) ++ rest).head? = some '/') := by
      cases body with
      | nil => simp
      | cons d body => simpa using hf
    refine .cons State.In.steps_beginBlockComment (.cons (State.In.steps_blockComment hstar) ?_)
    exact (takes_blockComment hb stack _).append
      (.cons State.In.steps_endBlockComment (takes_slash hc hs (ih stack rest)))
  | template hb _ ih =>
    exact .cons State.In.steps_templateMark
      ((hb.takes stack _).append (.cons Template.steps_close (ih stack rest)))

/-- **A source whose braces match has all of them matched.** -/
theorem scan_of_code {src : Bytes} (h : Code (Utf8.decode src)) : scan src = .allMatched := by
  obtain ⟨t, hmoves, ht⟩ := h.takes .empty [] State.start ⟨rfl, rfl, rfl⟩
  rw [List.append_nil] at hmoves
  have houtcome : State.start.outcome (Utf8.decode src) = .ended t := hmoves.outcome_eq
  have hsize : t.stack.size = 0 := by rw [ht.stack_eq]; rfl
  rw [scan_eq_verdict, houtcome, Outcome.verdict, if_pos hsize]

/-- A block around a string, a template with an interpolation and a comment, all of them with
braces of their own. -/
theorem scan_of_code_block :
    Code (Utf8.decode [0x7b, 0x27, 0x7d, 0x27, 0x60, 0x24, 0x7b, 0x7b, 0x7d, 0x60, 0x2f, 0x2a,
      0x7d, 0x2a, 0x2f, 0x3b, 0x7d]) ∧
    scan [0x7b, 0x27, 0x7d, 0x27, 0x60, 0x24, 0x7b, 0x7b, 0x7d, 0x60, 0x2f, 0x2a,
      0x7d, 0x2a, 0x2f, 0x3b, 0x7d] = .allMatched := by
  have hplain : Plain ';' := by unfold Plain; decide
  have hcomment : Code ['/', '*', '\x7d', '*', '/', ';'] :=
    @Code.blockComment _ ['\x7d'] [] (by decide) (by decide) hplain (by decide) .nil
  have hinner : InterpolationBody ['\x7b'] := .char (by decide) (by unfold NoOpening; decide) .nil
  have hbody : TemplateBody ['$', '\x7b', '\x7b', '\x7d'] :=
    @TemplateBody.interpolation ['\x7b'] [] hinner .nil
  have htemplate := Code.template hbody hcomment
  have hstring : StringBody '\x27' ['\x7d'] := .char (by decide) (by decide) .nil
  have hquoted := Code.quoted (.inl rfl) hstring htemplate
  have hcode := Code.block hquoted .nil
  exact ⟨hcode, scan_of_code hcode⟩

end BraceBalance
