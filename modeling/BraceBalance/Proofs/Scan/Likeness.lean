import BraceBalance.Proofs.Scan.Places
import BraceBalance.Proofs.Scan.Positions

/-!
# Proofs/Scan/Likeness — what a scan does not look at

A lexer looks neither at its place nor, outside of strings and templates, at a pending backslash:
lexers that differ in these alone (`Lexer.Alike`) meet the same markers at other places.  Judging
markers does not look at places either.  So two scans that hold the same openers and are alike
otherwise come to verdicts of one class, with the same of the old openers left and as many new
ones of the same kinds (`State.outcome_agree`), whatever text they read.
-/

namespace BraceBalance

/-! ## Markers without their places -/

/-- An opener without its place. -/
def Opener.unplaced (o : Opener) : Opener := { o with position := .none }

/-- A marker without its place. -/
def Marker.unplaced : Marker → Marker
  | opening o => opening o.unplaced
  | closing kind _ => closing kind .none

/-- Taking the places away is moving them all to one. -/
theorem Marker.unplaced_eq_moved : Marker.unplaced = Marker.moved fun _ => .none := by
  funext m
  cases m <;> rfl

/-- Whether some closing brace is too many does not hang on places. -/
theorem isSome_firstSurplus?_map_unplaced (seen ms : List Marker) :
    (firstSurplus? (seen.map (·.unplaced)) (ms.map (·.unplaced))).isSome =
      (firstSurplus? seen ms).isSome := by
  rw [Marker.unplaced_eq_moved, firstSurplus?_map_moved, Option.isSome_map]

/-- Matching does not look at places. -/
theorem matching_map_unplaced (ms : List Marker) :
    matching (ms.map (·.unplaced)) = ((matching ms).1.map (·.unplaced), (matching ms).2) := by
  rw [Marker.unplaced_eq_moved, matching_map_moved]
  rfl

/-- What matching leaves was there. -/
theorem mem_of_mem_matching {ms : List Marker} {o : Opener} (h : o ∈ (matching ms).1) :
    .opening o ∈ ms := by
  induction ms with
  | nil => exact absurd h List.not_mem_nil
  | cons m ms ih =>
    cases m with
    | closing kind p => exact List.mem_cons_of_mem _ (ih h)
    | opening o' =>
      rw [matching] at h
      generalize matching ms = found at h ih
      obtain ⟨left, _ | closers⟩ := found
      · rcases List.mem_cons.1 h with rfl | h
        · exact List.mem_cons_self
        · exact List.mem_cons_of_mem _ (ih h)
      · exact List.mem_cons_of_mem _ (ih h)

/-- Closers that find no opener of their own take the newest of the openers in front of them. -/
theorem matching_append_openings (base : List Opener) (ms : List Marker) :
    matching (base.map .opening ++ ms) =
      (base.take (base.length - (matching ms).2) ++ (matching ms).1,
        (matching ms).2 - base.length) := by
  generalize hfound : matching ms = found
  obtain ⟨left, closers⟩ := found
  induction base with
  | nil => simp [hfound]
  | cons o base ih =>
    rw [List.map_cons, List.cons_append, matching, ih]
    dsimp only
    by_cases hle : closers ≤ base.length
    · have hkeep : base.length + 1 - closers = base.length - closers + 1 := by omega
      rw [Nat.sub_eq_zero_of_le hle, List.length_cons, hkeep,
        Nat.sub_eq_zero_of_le (Nat.le_succ_of_le hle)]
      rfl
    · obtain ⟨n, hn⟩ : ∃ n, closers - base.length = n + 1 := ⟨closers - base.length - 1, by omega⟩
      rw [hn, List.length_cons, show base.length + 1 - closers = 0 by omega,
        show base.length - closers = 0 by omega, show closers - (base.length + 1) = n by omega]
      rfl

/-! ## Lexers that differ in place

Neither the place nor a note that quotes nothing is looked at by any step. -/

/-- Whether a backslash quotes the next character in this mode. -/
def Mode.quoting : Mode → Bool
  | code | lineComment | blockComment => false
  | singleQuoted | doubleQuoted | template => true

/-- Lexers that differ in their place at most, and in a backslash that quotes nothing. -/
structure Lexer.Alike (x y : Lexer) : Prop where
  mode_eq : x.mode = y.mode
  depth_eq : x.depth = y.depth
  escaped_eq : x.mode.quoting → x.escaped = y.escaped

namespace Lexer.Alike

variable {x y : Lexer} {c : Char}

/-- What one character makes of two lexers is alike, and so is the marker they meet. -/
def After (p q : Lexer × Option Marker) : Prop :=
  p.1.Alike q.1 ∧ p.2.map (·.unplaced) = q.2.map (·.unplaced)

theorem advance (h : x.Alike y) : x.advance.Alike y.advance := ⟨h.mode_eq, h.depth_eq, h.escaped_eq⟩

theorem newLine (h : x.Alike y) : x.newLine.Alike y.newLine :=
  ⟨by simp only [Lexer.newLine, h.mode_eq], h.depth_eq, fun _ => rfl⟩

/-- In code lexers that are alike meet the same marker. -/
theorem stepCode (h : x.Alike y) (next : Option Char) :
    After (x.stepCode c next) (y.stepCode c next) := by
  have hsame : ∀ {mode : Mode}, After ({ x with mode, escaped := false }, none)
      ({ y with mode, escaped := false }, none) := ⟨⟨rfl, h.depth_eq, fun _ => rfl⟩, rfl⟩
  by_cases hb : c = '\\'
  · -- Here alone the pending backslash is looked at, and it makes no difference.
    have hquiet : ∀ z : Lexer, z.stepCode c next = ({ z with escaped := true }, none) := by
      rintro ⟨line, column, mode, _ | _, depth⟩
      · simp [Lexer.stepCode, hb]
      · simp [Lexer.stepCode, hb, Mode.opened?]
    rw [hquiet, hquiet]
    exact ⟨⟨h.mode_eq, h.depth_eq, fun _ => rfl⟩, rfl⟩
  · unfold Lexer.stepCode
    simp only [hb, false_and, if_false]
    by_cases hl : c = '/' ∧ next = some '/'
    · simp only [if_pos hl]
      exact ⟨⟨rfl, h.depth_eq, fun hquoting => absurd hquoting Bool.false_ne_true⟩, rfl⟩
    by_cases hs : c = '/' ∧ next = some '*'
    · simp only [if_neg hl, if_pos hs]
      exact ⟨⟨rfl, h.depth_eq, fun hquoting => absurd hquoting Bool.false_ne_true⟩, rfl⟩
    simp only [if_neg hl, if_neg hs]
    cases Mode.opened? c with
    | some mode => exact hsame
    | none =>
      by_cases ho : c = '\x7b'
      · simp only [if_pos ho]
        exact ⟨h, rfl⟩
      by_cases hc : c = '\x7d'
      · simp only [if_neg ho, if_pos hc]
        exact ⟨h, rfl⟩
      simp only [if_neg ho, if_neg hc]
      exact ⟨h, rfl⟩

/-- So do they between quotation marks, where they agree on what is pending. -/
theorem stepQuoted (h : x.Alike y) (hm : x.mode.quoting) (closer : Char) :
    After (x.stepQuoted closer c) (y.stepQuoted closer c) := by
  unfold Lexer.stepQuoted
  rw [h.escaped_eq hm]
  split_ifs
  · exact ⟨⟨h.mode_eq, h.depth_eq, fun _ => rfl⟩, rfl⟩
  · exact ⟨⟨rfl, h.depth_eq, nofun⟩, rfl⟩
  · exact ⟨⟨h.mode_eq, h.depth_eq, fun _ => rfl⟩, rfl⟩

theorem stepTemplate (h : x.Alike y) (hm : x.mode.quoting) (next : Option Char) :
    After (x.stepTemplate c next) (y.stepTemplate c next) := by
  unfold Lexer.stepTemplate
  rw [h.escaped_eq hm, h.depth_eq]
  split_ifs
  · exact ⟨⟨h.mode_eq, rfl, fun _ => rfl⟩, rfl⟩
  · exact ⟨⟨rfl, rfl, nofun⟩, rfl⟩
  · exact ⟨⟨h.mode_eq, rfl, fun _ => rfl⟩, rfl⟩
  · exact ⟨⟨h.mode_eq, rfl, fun _ => rfl⟩, rfl⟩
  · exact ⟨⟨h.mode_eq, rfl, fun _ => rfl⟩, rfl⟩

/-- Lexers that are alike stay so, and meet the same marker. -/
theorem step (h : x.Alike y) (c : Char) (next : Option Char) :
    After (x.step c next) (y.step c next) := by
  unfold Lexer.step
  by_cases hn : c = '\n'
  · simp only [if_pos hn]
    exact ⟨h.newLine, rfl⟩
  simp only [if_neg hn]
  have hnext := h.advance
  have hmode : y.advance.mode = x.advance.mode := h.mode_eq.symm
  unfold Lexer.stepInLine
  rw [hmode]
  cases hm : x.advance.mode with
  | code => exact hnext.stepCode next
  | lineComment => exact ⟨hnext, rfl⟩
  | blockComment =>
    by_cases he : c = '*' ∧ next = some '/'
    · simp only [if_pos he]
      exact ⟨⟨rfl, h.depth_eq, fun hquoting => absurd hquoting Bool.false_ne_true⟩, rfl⟩
    · simp only [if_neg he]
      exact ⟨hnext, rfl⟩
  | singleQuoted => exact hnext.stepQuoted (by rw [hm]; rfl) _
  | doubleQuoted => exact hnext.stepQuoted (by rw [hm]; rfl) _
  | template => exact hnext.stepTemplate (by rw [hm]; rfl) next

/-- **Lexers that are alike meet the same markers**, at other places. -/
theorem markers (h : x.Alike y) (cs : List Char) :
    (x.markers cs).map (·.unplaced) = (y.markers cs).map (·.unplaced) := by
  induction cs generalizing x y with
  | nil => rfl
  | cons c rest ih =>
    obtain ⟨hnext, hmarker⟩ := h.step c rest.head?
    rw [Lexer.markers, Lexer.markers, List.map_append, List.map_append, ih hnext,
      ← Option.toList_map, ← Option.toList_map, hmarker]

end Lexer.Alike

/-! ## Places of markers -/

namespace Lexer

/-- The lexer is where `x` is, and so is the marker it has met. -/
def Stays (x : Lexer) (met : Lexer × Option Marker) : Prop :=
  met.1.place = x.place ∧ ∀ m ∈ met.2, m.position = .ofPlace x.place

variable (x : Lexer) (c : Char) (next : Option Char)

theorem stays_of_none {x y : Lexer} (h : y.place = x.place) : x.Stays (y, none) := ⟨h, nofun⟩

theorem stays_of_some {x y : Lexer} {m : Marker} (h : y.place = x.place)
    (hm : m.position = x.here) : x.Stays (y, some m) := by
  refine ⟨h, fun m' hm' => ?_⟩
  rw [← Option.mem_some.1 hm', hm]
  rfl

theorem stays_stepCode : x.Stays (x.stepCode c next) := by
  unfold stepCode
  cases Mode.opened? c with
  | some mode => split_ifs <;> exact stays_of_none rfl
  | none =>
    dsimp only
    split_ifs
    · exact stays_of_none rfl
    · exact stays_of_none rfl
    · exact stays_of_none rfl
    · exact stays_of_some rfl rfl
    · exact stays_of_some rfl rfl
    · exact stays_of_none rfl

theorem stays_stepQuoted (closer : Char) : x.Stays (x.stepQuoted closer c) := by
  unfold stepQuoted
  split_ifs
  · exact stays_of_none rfl
  · exact stays_of_none rfl
  · exact stays_of_none rfl

theorem stays_stepTemplate : x.Stays (x.stepTemplate c next) := by
  unfold stepTemplate
  split_ifs
  · exact stays_of_none rfl
  · exact stays_of_none rfl
  · exact stays_of_some rfl rfl
  · exact stays_of_some rfl rfl
  · exact stays_of_none rfl

theorem stays_stepInLine : x.Stays (x.stepInLine c next) := by
  unfold stepInLine
  cases x.mode with
  | code => exact x.stays_stepCode c next
  | lineComment => exact stays_of_none rfl
  | blockComment =>
    dsimp only
    split_ifs
    · exact stays_of_none rfl
    · exact stays_of_none rfl
  | singleQuoted => exact x.stays_stepQuoted c _
  | doubleQuoted => exact x.stays_stepQuoted c _
  | template => exact x.stays_stepTemplate c next

/-- A lexer moves on by its character, and the marker it meets is there. -/
theorem place_step :
    (x.step c next).1.place = walk x.place c ∧
      ∀ m ∈ (x.step c next).2, m.position = .ofPlace (x.step c next).1.place := by
  unfold Lexer.step
  by_cases hn : c = '\n'
  · simp only [if_pos hn]
    exact ⟨by simp [Lexer.place, Lexer.newLine, walk, hn], nofun⟩
  · simp only [if_neg hn]
    obtain ⟨hplace, hmarker⟩ := x.advance.stays_stepInLine c next
    have hadvance : x.advance.place = walk x.place c := by simp [Lexer.place, walk, hn]
    exact ⟨hplace.trans hadvance, fun m hm => by rw [hplace, hmarker m hm]⟩

/-- The markers a lexer meets lie behind the place it starts from. -/
theorem before_of_mem_markers {x : Lexer} {p : Position} {cs : List Char} {m : Marker}
    (hp : p.Before (.ofPlace x.place) ∨ p = .ofPlace x.place) (hm : m ∈ x.markers cs) :
    p.Before m.position := by
  induction cs generalizing x with
  | nil => exact absurd hm List.not_mem_nil
  | cons c rest ih =>
    obtain ⟨hplace, hmarker⟩ := x.place_step c rest.head?
    have hnext : p.Before (.ofPlace (x.step c rest.head?).1.place) :=
      hplace ▸ Position.before_walk hp c
    rw [Lexer.markers, List.mem_append, Option.mem_toList] at hm
    rcases hm with hm | hm
    · exact hmarker m hm ▸ hnext
    · exact ih (.inl hnext) hm

end Lexer

/-! ## Verdicts that agree

What two scans held before is common to both; what they add may differ in place, and the class of
the verdict is told by both together. -/

/-- Two verdicts of one class.  Both hold the same of the openers `old`, and then openers of the
same kinds that stand behind `place`. -/
def Verdict.Agree (old : List Opener) (place : Position) (v w : Verdict) : Prop :=
  v.kind = w.kind ∧ ∃ kept later later' : List Opener, kept <+: old ∧
    v.opened = kept ++ later ∧ w.opened = kept ++ later' ∧
    later.map (·.kind) = later'.map (·.kind) ∧ ∀ o ∈ later ++ later', place.Before o.position

/-- Verdicts that agree show openers of the same kinds. -/
theorem Verdict.Agree.kinds_eq {old : List Opener} {place : Position} {v w : Verdict}
    (h : v.Agree old place w) : v.opened.map (·.kind) = w.opened.map (·.kind) := by
  obtain ⟨-, kept, later, later', -, hv, hw, hkinds, -⟩ := h
  rw [hv, hw, List.map_append, List.map_append, hkinds]

/-- Openers that are the same but for their places are of the same kinds. -/
theorem map_kind_of_unplaced {os os' : List Opener}
    (h : os.map (·.unplaced) = os'.map (·.unplaced)) : os.map (·.kind) = os'.map (·.kind) := by
  have hkind := congrArg (List.map (·.kind)) h
  rwa [List.map_map, List.map_map] at hkind

namespace Outcome.Tells

variable {seen ms : List Marker} {outcome : Outcome}

/-- A verdict is of an unexpected closing brace exactly if one of them is too many. -/
theorem kind_verdict_iff (h : outcome.Tells seen ms) :
    outcome.verdict.kind = .unexpectedClosing ↔ (firstSurplus? seen ms).isSome := by
  cases outcome with
  | halted closing =>
    have hfirst : firstSurplus? seen ms = some closing := h
    simp [hfirst, Outcome.verdict, Verdict.unexpectedClosing]
  | ended s =>
    have hnone : firstSurplus? seen ms = none := h.1
    simp [hnone, Outcome.kind_verdict_ended s]

/-- The openers of a verdict are those left of the markers, if no closing brace is too many. -/
theorem opened_verdict (h : outcome.Tells seen ms) :
    outcome.verdict.opened = if (firstSurplus? seen ms).isSome then [] else unclosed (seen ++ ms) := by
  cases outcome with
  | halted closing =>
    have hfirst : firstSurplus? seen ms = some closing := h
    simp [hfirst, Outcome.verdict, Verdict.unexpectedClosing]
  | ended s =>
    have hnone : firstSurplus? seen ms = none := h.1
    rw [hnone, Outcome.opened_verdict, h.2.unclosed_eq]
    rfl

end Outcome.Tells

/-- The class of a verdict on a run follows from whether the run halts and from its openers. -/
theorem Outcome.kind_verdict (outcome : Outcome) :
    outcome.verdict.kind = .unexpectedClosing ∨
      outcome.verdict.kind =
        if outcome.verdict.opened = [] then .allMatched else .unmatchedOpen := by
  cases outcome with
  | halted closing => exact .inl rfl
  | ended s =>
    right
    have hsize : s.stack.entries = [] ↔ s.stack.size = 0 := by
      rw [← s.stack.length_entries, List.length_eq_zero_iff]
    rw [Outcome.opened_verdict, Outcome.verdict]
    by_cases h : s.stack.size = 0
    · rw [if_pos h, if_pos (hsize.2 h)]
      rfl
    · rw [if_neg h, if_neg fun he => h (hsize.1 he)]
      rfl

/-- **Scans that are alike come to verdicts that agree.**  They hold the same openers; their places
may differ, and so may a backslash that quotes nothing. -/
theorem State.outcome_agree {s t : State} (hs : s.Sound) (ht : t.Sound)
    (hlexer : s.lexer.Alike t.lexer) (hstack : s.stack = t.stack) {place : Position}
    (hplace : place.Before (.ofPlace s.lexer.place) ∨ place = .ofPlace s.lexer.place)
    (hplace' : place.Before (.ofPlace t.lexer.place) ∨ place = .ofPlace t.lexer.place)
    (cs : List Char) :
    (s.outcome cs).verdict.Agree s.stack.entries place (t.outcome cs).verdict := by
  have htells : (s.outcome cs).Tells (s.stack.entries.map .opening) (s.lexer.markers cs) :=
    State.outcome_tells hs .refl cs
  have htells' : (t.outcome cs).Tells (s.stack.entries.map .opening) (t.lexer.markers cs) :=
    State.outcome_tells ht (hstack ▸ .refl) cs
  have hmarkers := hlexer.markers cs
  have hsurplus : (firstSurplus? (s.stack.entries.map .opening) (s.lexer.markers cs)).isSome =
      (firstSurplus? (s.stack.entries.map .opening) (t.lexer.markers cs)).isSome := by
    rw [← isSome_firstSurplus?_map_unplaced, hmarkers, isSome_firstSurplus?_map_unplaced]
  have hkind := htells.kind_verdict_iff
  have hkind' := htells'.kind_verdict_iff
  have hopened := htells.opened_verdict
  have hopened' := htells'.opened_verdict
  rw [← hsurplus] at hkind' hopened'
  by_cases hhalts : (firstSurplus? (s.stack.entries.map .opening) (s.lexer.markers cs)).isSome
  · rw [if_pos hhalts] at hopened hopened'
    exact ⟨(hkind.2 hhalts).trans (hkind'.2 hhalts).symm, [], [], [], List.nil_prefix, hopened,
      hopened', rfl, nofun⟩
  · rw [if_neg hhalts, unclosed, matching_append_openings] at hopened hopened'
    -- Both runs find the same number of closers for the openers they started with.
    obtain ⟨hleft, hclosers⟩ := Prod.mk.inj <|
      (matching_map_unplaced (s.lexer.markers cs)).symm.trans <|
        (congrArg matching hmarkers).trans (matching_map_unplaced (t.lexer.markers cs))
    rw [← hclosers] at hopened'
    have hkinds := map_kind_of_unplaced hleft
    refine ⟨?_, _, _, _, List.take_prefix _ _, hopened, hopened', hkinds, ?_⟩
    · have hempty : (s.outcome cs).verdict.opened = [] ↔ (t.outcome cs).verdict.opened = [] := by
        have hlength := congrArg List.length hkinds
        rw [List.length_map, List.length_map] at hlength
        rw [← List.length_eq_zero_iff, ← List.length_eq_zero_iff, hopened, hopened',
          List.length_append, List.length_append, hlength]
      rw [((s.outcome cs).kind_verdict).resolve_left (mt hkind.1 hhalts),
        ((t.outcome cs).kind_verdict).resolve_left (mt hkind'.1 hhalts)]
      simp only [hempty]
    · rintro o ho
      rcases List.mem_append.1 ho with ho | ho
      · exact Lexer.before_of_mem_markers hplace (mem_of_mem_matching ho)
      · exact Lexer.before_of_mem_markers hplace' (mem_of_mem_matching ho)

/-- The verdicts of scans that are alike show the same, but for places. -/
theorem State.outcome_kinds_eq {s t : State} (hs : s.Sound) (ht : t.Sound)
    (hlexer : s.lexer.Alike t.lexer) (hstack : s.stack = t.stack) (cs : List Char) :
    (s.outcome cs).verdict.kind = (t.outcome cs).verdict.kind ∧
      (s.outcome cs).verdict.opened.map (·.kind) = (t.outcome cs).verdict.opened.map (·.kind) := by
  have hbefore : ∀ place, (Position.mk (-1) 0).Before (.ofPlace place) := by
    intro place
    left
    simp only [Position.ofPlace]
    omega
  have hagree := State.outcome_agree hs ht hlexer hstack (.inl (hbefore _)) (.inl (hbefore _)) cs
  exact ⟨hagree.1, hagree.kinds_eq⟩

end BraceBalance
