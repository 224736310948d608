import BraceBalance.Proofs.Scan.Layers
import BraceBalance.Proofs.Text.Lines
import BraceBalance.Proofs.Text.Utf8

/-!
# Proofs/Scan/Positions — what a scan points at is there

A scan counts lines and columns over the characters of a whole text; the lines shown to a reader
are cut out of its bytes.  The two agree: the character at the line and column a scan gives is the
one the scan met (`charAt?_of_stands`), for openers left over and for an unexpected closing brace.
Openers are left in the order they stand.
-/

namespace BraceBalance

/-- The character at a line and column, both counted from one, given the lines of a text. -/
def charAt? (lines : List Bytes) (p : Position) : Option Char :=
  if 1 ≤ p.line ∧ 1 ≤ p.column then
    lines[p.line.toNat - 1]?.bind fun line => (Utf8.decode line)[p.column.toNat - 1]?
  else none

/-- Before in reading order. -/
def Position.Before (p q : Position) : Prop :=
  p.line < q.line ∨ p.line = q.line ∧ p.column < q.column

/-- The position of a line and column. -/
def Position.ofPlace (place : Nat × Nat) : Position := ⟨place.1, place.2⟩

/-- The character `c`, with `next` behind it, stands at `p`. -/
def Stands (text : List Char) (p : Position) (c : Char) (next : Option Char) : Prop :=
  ∃ before after, text = before ++ c :: after ∧ next = after.head? ∧
    p = .ofPlace (walk (before.foldl walk (1, 0)) c)

/-! ## Lines of a text and lines of its characters -/

theorem walk_newline (place : Nat × Nat) : walk place '\n' = (place.1 + 1, 0) := rfl

theorem walk_of_ne {c : Char} (h : c ≠ '\n') (place : Nat × Nat) :
    walk place c = (place.1, place.2 + 1) := if_neg h

/-- Without a line break, characters lead to the right in one line. -/
theorem foldl_walk_of_not_mem {cs : List Char} (h : '\n' ∉ cs) (line column : Nat) :
    cs.foldl walk (line, column) = (line, column + cs.length) := by
  induction cs generalizing column with
  | nil => rfl
  | cons c cs ih =>
    rw [List.mem_cons, not_or] at h
    rw [List.foldl_cons, walk_of_ne (Ne.symm h.1), ih h.2, List.length_cons]
    congr 1
    omega

/-- A line has no line break among its characters. -/
theorem newline_not_mem_decode {a : Bytes} (h : Lines.lf ∉ a) : '\n' ∉ Utf8.decode a :=
  fun hmem => h (Utf8.mem_of_mem_decode (by decide) (by decide) hmem)

/-- A line break is a character by itself, even behind half of one. -/
theorem decode_append_lf (a rest : Bytes) :
    Utf8.decode (a ++ Lines.lf :: rest) = Utf8.decode a ++ '\n' :: Utf8.decode rest :=
  Utf8.decode_append_ascii (by decide) a rest

/-- **The character reached by counting over the text is found in the lines**, the first of which
has the number `n`. -/
theorem exists_line {raw : Bytes} (hcr : Lines.cr ∉ raw) (n : Nat) {before after : List Char}
    {c : Char} (h : Utf8.decode raw = before ++ c :: after) (hc : c ≠ '\n') :
    n ≤ (before.foldl walk (n, 0)).1 ∧
      ∃ line, (Lines.split raw)[(before.foldl walk (n, 0)).1 - n]? = some line ∧
        (Utf8.decode line)[(before.foldl walk (n, 0)).2]? = some c := by
  induction raw using Lines.line_induction generalizing n before with
  | last a hlf =>
    have hbefore : '\n' ∉ before := fun hmem =>
      newline_not_mem_decode hlf (h ▸ List.mem_append_left _ hmem)
    have hne : a ≠ [] := by
      rintro rfl
      simp at h
    rw [foldl_walk_of_not_mem hbefore, Lines.split_of_not_mem hcr hlf hne]
    exact ⟨Nat.le_refl n, a, by simp, by simp [h]⟩
  | line a rest hlf ih =>
    rw [List.mem_append, List.mem_cons, not_or, not_or] at hcr
    rw [decode_append_lf] at h
    rw [Lines.split_append_lf hcr.1 hlf]
    have ha := newline_not_mem_decode hlf
    -- Either the first line and its LF lie before `c`, or `c` lies in the first line.
    rcases List.append_eq_append_iff.1 h with ⟨_ | ⟨d, bs⟩, hbefore, hrest⟩ |
      ⟨_ | ⟨d, bs⟩, hfirst, hrest⟩
    · exact absurd (List.cons.inj hrest).1.symm hc
    · obtain ⟨rfl, htail⟩ := List.cons.inj hrest
      obtain ⟨hle, line, hline, hchar⟩ := ih hcr.2.2 (n + 1) htail
      rw [hbefore, List.foldl_append, foldl_walk_of_not_mem ha, List.foldl_cons, walk_newline]
      have hindex :
          (bs.foldl walk (n + 1, 0)).1 - n = (bs.foldl walk (n + 1, 0)).1 - (n + 1) + 1 := by
        omega
      refine ⟨Nat.le_of_succ_le hle, line, ?_, hchar⟩
      change (a :: Lines.split rest)[(bs.foldl walk (n + 1, 0)).1 - n]? = some line
      rw [hindex]
      exact hline
    · exact absurd (List.cons.inj hrest).1 hc
    · obtain ⟨rfl, -⟩ := List.cons.inj hrest
      have hbefore : '\n' ∉ before := fun hmem => ha (hfirst ▸ List.mem_append_left _ hmem)
      rw [foldl_walk_of_not_mem hbefore]
      exact ⟨Nat.le_refl n, a, by simp, by simp [hfirst]⟩

/-- **A character that stands somewhere in a text is found there in its lines.** -/
theorem charAt?_of_stands {raw : Bytes} (hcr : Lines.cr ∉ raw) {p : Position} {c : Char}
    {next : Option Char} (h : Stands (Utf8.decode raw) p c next) (hc : c ≠ '\n') :
    1 ≤ p.line ∧ p.line ≤ (Lines.split raw).length ∧ charAt? (Lines.split raw) p = some c := by
  obtain ⟨before, after, htext, -, rfl⟩ := h
  obtain ⟨hle, line, hline, hchar⟩ := exists_line hcr 1 htext hc
  generalize before.foldl walk (1, 0) = place at hle hline hchar
  obtain ⟨hlt, -⟩ := List.getElem?_eq_some_iff.1 hline
  have hline' : (Lines.split raw)[(place.1 : Int).toNat - 1]? = some line := by simpa using hline
  have hchar' : (Utf8.decode line)[((place.2 + 1 : Nat) : Int).toNat - 1]? = some c := by
    simpa using hchar
  rw [walk_of_ne hc, Position.ofPlace]
  have hone : (1 : Int) ≤ place.1 := Int.ofNat_le.2 hle
  refine ⟨hone, by simp only; omega, ?_⟩
  rw [charAt?, if_pos ⟨hone, by simp only; omega⟩, hline', Option.bind_some, hchar']

/-- What stands behind a character of a line stands one column further. -/
theorem Stands.following {text : List Char} {p : Position} {c d : Char}
    (h : Stands text p c (some d)) (hc : c ≠ '\n') (hd : d ≠ '\n') :
    ∃ next, Stands text { p with column := p.column + 1 } d next := by
  obtain ⟨before, after, rfl, hnext, rfl⟩ := h
  obtain ⟨after, rfl⟩ := List.head?_eq_some_iff.1 hnext.symm
  refine ⟨_, before ++ [c], after, by simp, rfl, ?_⟩
  rw [List.foldl_append, List.foldl_cons, List.foldl_nil, walk_of_ne hc, walk_of_ne hd]
  rfl

/-! ## Along a scan

The text before the place of a scan is kept by the invariant, so an opener that is pushed stands at
the end of it. -/

namespace Turn

variable {s t : State} {c : Char} {next : Option Char} {lexed : Lexer × Option Marker}

/-- A turn moves on by its character. -/
theorem place_eq {step : Step} (h : Turn s c next lexed step) :
    lexed.1.place = walk s.lexer.place c := by
  cases h with
  | silent place => exact place
  | openBrace char _ lexer => rw [lexer, char]; rfl
  | closeBrace char _ lexer => rw [lexer, char]; rfl
  | halt char _ lexer => rw [lexer, char]; rfl
  | openInterpolation char _ _ lexer => rw [lexer, char]; rfl
  | closeInterpolation char _ _ lexer => rw [lexer, char]; rfl

/-- A turn leads one character further. -/
theorem place_next {event : Option Event} (h : Turn s c next lexed (.next t event)) :
    t.lexer.place = walk s.lexer.place c := by
  rw [← h.place_eq]
  cases h <;> rfl

/-- A turn takes openers away, or adds the one that its character begins. -/
theorem entries_cases {event : Option Event} (h : Turn s c next lexed (.next t event)) :
    t.stack.entries.Sublist s.stack.entries ∨
      ∃ o, t.stack.entries = s.stack.entries ++ [o] ∧
        o.position = .ofPlace (walk s.lexer.place c) ∧
        (o.kind = .brace ∧ c = '\x7b' ∨
          o.kind = .interpolation ∧ c = '$' ∧ next = some '\x7b') := by
  rw [← h.place_eq]
  cases h with
  | silent => exact .inl (List.Sublist.refl _)
  | openBrace char _ _ opener =>
    exact .inr ⟨_, OpenStack.entries_push _ _, by rw [opener]; rfl, .inl ⟨by rw [opener], char⟩⟩
  | closeBrace _ _ _ stack =>
    rw [stack, OpenStack.entries_push]
    exact .inl (List.sublist_append_left _ _)
  | openInterpolation char following _ _ opener =>
    exact .inr ⟨_, OpenStack.entries_push _ _, by rw [opener]; rfl,
      .inr ⟨by rw [opener], char, following⟩⟩
  | closeInterpolation _ _ _ _ stack =>
    rw [stack, OpenStack.entries_push]
    exact .inl (List.sublist_append_left _ _)

/-- A scan halts at the closing brace it reads. -/
theorem halt_cases {closing : Position} (h : Turn s c next lexed (.halt closing)) :
    c = '\x7d' ∧ closing = .ofPlace (walk s.lexer.place c) := by
  rw [← h.place_eq]
  cases h with
  | halt char => exact ⟨char, rfl⟩

end Turn

/-- An opener stands in a text as its kind is written. -/
def Opener.Fits (text : List Char) (o : Opener) : Prop :=
  (o.kind = .brace ∧ ∃ next, Stands text o.position '\x7b' next) ∨
    (o.kind = .interpolation ∧ Stands text o.position '$' (some '\x7b'))

/-- **An opener that stands in a text is found as written in its lines.** -/
theorem Opener.Fits.charAt?_eq {raw : Bytes} (hcr : Lines.cr ∉ raw) {o : Opener}
    (h : o.Fits (Utf8.decode raw)) :
    1 ≤ o.position.line ∧ o.position.line ≤ (Lines.split raw).length ∧
      (o.kind = .brace ∧ charAt? (Lines.split raw) o.position = some '\x7b' ∨
        o.kind = .interpolation ∧ charAt? (Lines.split raw) o.position = some '$' ∧
          charAt? (Lines.split raw) { o.position with column := o.position.column + 1 } =
            some '\x7b') := by
  rcases h with ⟨hkind, next, hstands⟩ | ⟨hkind, hstands⟩
  · obtain ⟨hone, hlast, hchar⟩ := charAt?_of_stands hcr hstands (by decide)
    exact ⟨hone, hlast, .inl ⟨hkind, hchar⟩⟩
  · obtain ⟨hone, hlast, hchar⟩ := charAt?_of_stands hcr hstands (by decide)
    obtain ⟨next, hbrace⟩ := hstands.following (by decide) (by decide)
    exact ⟨hone, hlast, .inr ⟨hkind, hchar, (charAt?_of_stands hcr hbrace (by decide)).2.2⟩⟩

/-- The openers of a state with `rest` before it are in the text, in order, and not ahead of it. -/
structure Faithful (text : List Char) (s : State) (rest : List Char) : Prop where
  reached : ∃ seen, text = seen ++ rest ∧ s.lexer.place = seen.foldl walk (1, 0)
  fits : ∀ o ∈ s.stack.entries, o.Fits text
  ordered : s.stack.entries.Pairwise fun o o' => o.position.Before o'.position
  passed : ∀ o ∈ s.stack.entries,
    o.position.Before (.ofPlace s.lexer.place) ∨ o.position = .ofPlace s.lexer.place

theorem Position.before_walk {p : Position} {place : Nat × Nat}
    (h : p.Before (.ofPlace place) ∨ p = .ofPlace place) (c : Char) :
    p.Before (.ofPlace (walk place c)) := by
  obtain ⟨line, column⟩ := p
  simp only [Position.Before, Position.ofPlace, Position.mk.injEq] at h ⊢
  by_cases hc : c = '\n'
  · rw [hc, walk_newline]
    simp only
    omega
  · rw [walk_of_ne hc]
    simp only
    omega

namespace Faithful

/-- A scan begins at the start of its text. -/
theorem start (text : List Char) : Faithful text .start text :=
  ⟨⟨[], rfl, rfl⟩, by simp [State.start, OpenStack.entries],
    by simp [State.start, OpenStack.entries], by simp [State.start, OpenStack.entries]⟩

variable {text rest : List Char} {s t : State} {c : Char}

/-- The character next to be read stands one step further. -/
theorem stands (h : Faithful text s (c :: rest)) :
    Stands text (.ofPlace (walk s.lexer.place c)) c rest.head? := by
  obtain ⟨seen, htext, hplace⟩ := h.reached
  exact ⟨seen, rest, htext, rfl, by rw [hplace]⟩

/-- One character keeps all of this: the place, the openers in the text, and their order. -/
theorem step {event : Option Event} (h : Faithful text s (c :: rest)) (hs : s.Sound)
    (hstep : s.step c rest.head? = .next t event) : Faithful text t rest := by
  have turn := hstep ▸ hs.turn c rest.head?
  have hplace := turn.place_next
  have hpassed : ∀ o ∈ s.stack.entries, o.position.Before (.ofPlace t.lexer.place) :=
    fun o ho => hplace ▸ Position.before_walk (h.passed o ho) c
  have hreached : ∃ seen, text = seen ++ rest ∧ t.lexer.place = seen.foldl walk (1, 0) := by
    obtain ⟨seen, htext, hseen⟩ := h.reached
    exact ⟨seen ++ [c], by simp [htext], by simp [hplace, hseen]⟩
  rcases turn.entries_cases with hsub | ⟨o, hentries, hposition, hkind⟩
  · exact ⟨hreached, fun o ho => h.fits o (hsub.subset ho), h.ordered.sublist hsub,
      fun o ho => .inl (hpassed o (hsub.subset ho))⟩
  · have hstands := h.stands
    rw [← hposition] at hstands
    have ho : o.Fits text := by
      rcases hkind with ⟨hkind, rfl⟩ | ⟨hkind, rfl, hnext⟩
      · exact .inl ⟨hkind, _, hstands⟩
      · exact .inr ⟨hkind, hnext ▸ hstands⟩
    rw [← hplace] at hposition
    refine ⟨hreached, ?_, ?_, ?_⟩ <;> rw [hentries]
    · exact List.forall_mem_append.2 ⟨h.fits, List.forall_mem_singleton.2 ho⟩
    · refine List.pairwise_append.2
        ⟨h.ordered, List.pairwise_singleton _ _, fun o' ho' o'' ho'' => ?_⟩
      rw [List.mem_singleton.1 ho'', hposition]
      exact hpassed o' ho'
    · exact List.forall_mem_append.2 ⟨fun o' ho' => .inl (hpassed o' ho'),
        List.forall_mem_singleton.2 (.inr hposition)⟩

theorem of_moves {config : State × List Char} (h : Moves (.start, text) config) :
    Faithful text config.1 config.2 := by
  induction h with
  | refl => exact start text
  | tail hmoves move ih =>
    cases move with
    | read hstep => exact ih.step (Moves.sound hmoves State.sound_start) hstep

end Faithful

/-- **The positions a scan gives are positions in the lines.**  Every opener left over stands in
the line and column it names, as its kind is written; the openers are in the order they stand; and
an unexpected closing brace is where the verdict says. -/
theorem scan_positions_in_lines (content : Bytes) :
    let source := Source.ofContent content
    let verdict := scan source.raw
    (∀ o ∈ verdict.opened, 1 ≤ o.position.line ∧ o.position.line ≤ source.lines.length ∧
        (o.kind = .brace ∧ charAt? source.lines o.position = some '\x7b' ∨
          o.kind = .interpolation ∧ charAt? source.lines o.position = some '$' ∧
            charAt? source.lines { o.position with column := o.position.column + 1 } =
              some '\x7b')) ∧
      verdict.opened.Pairwise (fun o o' => o.position.Before o'.position) ∧
      (verdict.kind = .unexpectedClosing →
        charAt? source.lines verdict.closing = some '\x7d') := by
  intro source verdict
  have hcr : Lines.cr ∉ source.raw := Lines.cr_not_mem_normalize content
  have hverdict : verdict = (State.start.outcome (Utf8.decode source.raw)).verdict := rfl
  rcases State.start.outcome_moves (Utf8.decode source.raw) with
    ⟨t, hended, hmoves⟩ | ⟨t, c, rest, closing, hhalted, hmoves, hhalt⟩
  · have hfaithful := Faithful.of_moves hmoves
    rw [hverdict, hended, Outcome.opened_verdict]
    refine ⟨fun o ho => (hfaithful.fits o ho).charAt?_eq hcr, hfaithful.ordered, fun hkind => ?_⟩
    exact absurd hkind (Outcome.kind_verdict_ended t)
  · have hfaithful := Faithful.of_moves hmoves
    have turn := hhalt ▸ (hmoves.sound State.sound_start).turn c rest.head?
    obtain ⟨rfl, rfl⟩ := turn.halt_cases
    rw [hverdict, hhalted]
    exact ⟨nofun, .nil, fun _ => (charAt?_of_stands hcr hfaithful.stands (by decide)).2.2⟩

end BraceBalance
