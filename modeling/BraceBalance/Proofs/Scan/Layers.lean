import BraceBalance.Proofs.Scan.Lexer
import BraceBalance.Proofs.Scan.Moves
import Mathlib.Tactic.SplitIfs

/-!
# Proofs/Scan/Layers — how the openers of a scan lie

Interpolations are opened in a template only, and a template is left only once they are closed, so
they always lie over the braces and the depth counts them (`State.Sound`).  Given that, a step of a
scan is a step of its lexer with the marker met there put to the openers: `State.Sound.turn` lists
everything one character can do to both, and every invariant of a run is read off the list.
-/

namespace BraceBalance

/-! ## Layers -/

/-- Openers as a scan lays them: `depth` interpolations, and only braces below them. -/
inductive OpenStack.Layered : Nat → OpenStack → Prop
  | braces {stack : OpenStack} (h : ∀ o ∈ stack.newestFirst, o.kind = .brace) : Layered 0 stack
  | interpolation {depth : Nat} {stack : OpenStack} {o : Opener} (h : o.kind = .interpolation)
      (below : Layered depth stack) : Layered (depth + 1) (stack.push o)

namespace OpenStack.Layered

theorem empty : Layered 0 empty := .braces (by simp [OpenStack.empty])

/-- A brace may lie on braces. -/
theorem push_brace {stack : OpenStack} (h : stack.Layered 0) (p : Position) :
    (stack.push ⟨p, .brace⟩).Layered 0 := by
  cases h with
  | braces h => exact .braces (List.forall_mem_cons.2 ⟨rfl, h⟩)

/-- Without interpolations the newest opener is a brace. -/
theorem of_push {stack : OpenStack} {o : Opener} (h : (stack.push o).Layered 0) :
    o.kind = .brace ∧ stack.Layered 0 := by
  cases h with
  | braces h => exact ⟨(List.forall_mem_cons.1 h).1, .braces (List.forall_mem_cons.1 h).2⟩

/-- With some, it is an interpolation. -/
theorem exists_push {depth : Nat} {stack : OpenStack} (h : stack.Layered depth)
    (hd : 0 < depth) :
    ∃ below top, stack = push below top ∧ top.kind = .interpolation ∧
      below.Layered (depth - 1) := by
  cases h with
  | braces => exact absurd hd (Nat.lt_irrefl 0)
  | @interpolation _ below top h hb => exact ⟨below, top, rfl, h, hb⟩

/-- The braces, the oldest first, and then the interpolations. -/
theorem entries_eq {depth : Nat} {stack : OpenStack} (h : stack.Layered depth) :
    ∃ braces interpolations : List Opener, stack.entries = braces ++ interpolations ∧
      (∀ o ∈ braces, o.kind = .brace) ∧ (∀ o ∈ interpolations, o.kind = .interpolation) ∧
      interpolations.length = depth := by
  induction h with
  | @braces stack h =>
    exact ⟨stack.entries, [], by simp, fun o ho => h o (List.mem_reverse.1 ho), by simp, rfl⟩
  | @interpolation depth stack o h _ ih =>
    obtain ⟨bs, is, heq, hb, hi, hlen⟩ := ih
    refine ⟨bs, is ++ [o], by simp [heq], hb, ?_, by simp [hlen]⟩
    intro o' ho'
    rcases List.mem_append.1 ho' with ho' | ho'
    · exact hi o' ho'
    · rw [List.mem_singleton.1 ho', h]

/-- The depth is the number of interpolations. -/
theorem countP_entries {depth : Nat} {stack : OpenStack} (h : stack.Layered depth) :
    stack.entries.countP (·.kind = .interpolation) = depth := by
  obtain ⟨bs, is, heq, hb, hi, hlen⟩ := h.entries_eq
  have hbs : bs.countP (·.kind = .interpolation) = 0 :=
    List.countP_eq_zero.2 fun o ho => by simp [hb o ho]
  have his : is.countP (·.kind = .interpolation) = is.length :=
    List.countP_eq_length.2 fun o ho => by simp [hi o ho]
  rw [heq, List.countP_append, hbs, his, hlen, Nat.zero_add]

end OpenStack.Layered

/-- What every state of a scan is like. -/
structure State.Sound (s : State) : Prop where
  layered : s.stack.Layered s.depth
  idle : s.mode ≠ .template → s.depth = 0

/-- A scan begins with nothing open. -/
theorem State.sound_start : State.start.Sound := ⟨.empty, fun _ => rfl⟩

/-! ## What one character can do

The cases of a step are told once, with what the lexer makes of the character beside it; every
invariant below goes by these cases. -/

/-- The line and column after one character more. -/
def walk (place : Nat × Nat) (c : Char) : Nat × Nat :=
  if c = '\n' then (place.1 + 1, 0) else (place.1, place.2 + 1)

/-- The line and column of the last character read. -/
def Lexer.place (x : Lexer) : Nat × Nat := (x.line, x.column)

/-- What reading `c`, with `next` in sight, can make of a state and of its lexer. -/
inductive Turn (s : State) (c : Char) (next : Option Char) : Lexer × Option Marker → Step → Prop
  | silent {y : Lexer} (place : y.place = walk s.lexer.place c) (depth : y.depth = s.depth)
      (stay : s.mode = .template → s.depth ≠ 0 → y.mode = .template) :
      Turn s c next (y, none) (.next (y.holding s.stack) none)
  | openBrace {y : Lexer} {o : Opener} (char : c = '\x7b') (code : s.mode = .code)
      (lexer : y = s.lexer.advance) (opener : o = ⟨y.here, .brace⟩) :
      Turn s c next (y, some (.opening o)) (.next (y.holding (s.stack.push o)) (some (.push o)))
  | closeBrace {y : Lexer} {top : Opener} {below : OpenStack} (char : c = '\x7d')
      (code : s.mode = .code) (lexer : y = s.lexer.advance) (stack : s.stack = below.push top)
      (brace : top.kind = .brace) :
      Turn s c next (y, some (.closing .brace y.here))
        (.next (y.holding below) (some (.pop y.here)))
  | halt {y : Lexer} (char : c = '\x7d') (code : s.mode = .code) (lexer : y = s.lexer.advance)
      (stack : s.stack = .empty) :
      Turn s c next (y, some (.closing .brace y.here)) (.halt y.here)
  | openInterpolation {y : Lexer} {o : Opener} (char : c = '$') (following : next = some '\x7b')
      (template : s.mode = .template)
      (lexer : y = { s.lexer.advance with depth := s.depth + 1, escaped := false })
      (opener : o = ⟨y.here, .interpolation⟩) :
      Turn s c next (y, some (.opening o)) (.next (y.holding (s.stack.push o)) (some (.push o)))
  | closeInterpolation {y : Lexer} {top : Opener} {below : OpenStack} (char : c = '\x7d')
      (template : s.mode = .template) (depth : 0 < s.depth)
      (lexer : y = { s.lexer.advance with depth := s.depth - 1, escaped := false })
      (stack : s.stack = below.push top) (interpolation : top.kind = .interpolation) :
      Turn s c next (y, some (.closing .interpolation y.here))
        (.next (y.holding below) (some (.closeInterpolation top.position)))

namespace State.Sound

variable {s : State} {c : Char}

/-- A character in a line after which the lexer differs in its mode and backslash alone. -/
theorem turn_silent (hc : c ≠ '\n') (next : Option Char) {mode : Mode} {escaped : Bool}
    (hstay : s.mode = .template → s.depth ≠ 0 → mode = .template) :
    Turn s c next ({ s.lexer.advance with mode, escaped }, none)
      (.next ({ s.lexer.advance with mode, escaped }.holding s.stack) none) :=
  .silent (by simp [Lexer.place, walk, hc]) rfl hstay

/-- A character in quotation marks is a turn that keeps the openers. -/
theorem turn_quoted (hm : s.mode ≠ .template) (hc : c ≠ '\n') (next : Option Char) (closer : Char) :
    Turn s c next (s.lexer.advance.stepQuoted closer c)
      ({ s with column := s.column + 1 }.stepQuoted closer c) := by
  unfold Lexer.stepQuoted State.stepQuoted
  split_ifs
  · exact turn_silent hc next fun h => absurd h hm
  · exact turn_silent hc next fun h => absurd h hm
  · exact turn_silent hc next fun h => absurd h hm

/-- A character in code is a turn; nothing is open in it but braces. -/
theorem turn_code (h : s.Sound) (hm : s.mode = .code) (hc : c ≠ '\n') (next : Option Char) :
    Turn s c next (s.lexer.advance.stepCode c next)
      ({ s with column := s.column + 1 }.stepCode c next) := by
  have hstay : ∀ m : Mode, s.mode = .template → s.depth ≠ 0 → m = .template := by simp [hm]
  have hlayers : s.stack.Layered 0 := by
    rw [← h.idle (by simp [hm])]
    exact h.layered
  unfold Lexer.stepCode State.stepCode
  by_cases h1 : c = '/' ∧ next = some '/'
  · simp only [if_pos h1]
    exact turn_silent hc next (hstay _)
  by_cases h2 : c = '/' ∧ next = some '*'
  · simp only [if_neg h1, if_pos h2]
    exact turn_silent hc next (hstay _)
  by_cases h3 : c = '\\' ∧ s.lexer.advance.escaped = false
  · simp only [if_neg h1, if_neg h2, if_pos h3]
    exact turn_silent hc next (hstay _)
  simp only [if_neg h1, if_neg h2, if_neg h3]
  cases Mode.opened? c with
  | some mode => exact turn_silent hc next (hstay _)
  | none =>
    by_cases h4 : c = '\x7b'
    · simp only [if_pos h4]
      exact .openBrace h4 hm rfl rfl
    by_cases h5 : c = '\x7d'
    · simp only [if_neg h4, if_pos h5]
      rcases s.stack.eq_empty_or_push with hs | ⟨below, top, hs⟩
      · simp only [hs, OpenStack.pop?_empty]
        exact .halt h5 hm rfl hs
      · simp only [hs, OpenStack.pop?_push]
        exact .closeBrace h5 hm rfl hs (hs ▸ hlayers).of_push.1
    simp only [if_neg h4, if_neg h5]
    exact turn_silent hc next (hstay _)

/-- A character in a template is a turn; if an interpolation is open, it is on top. -/
theorem turn_template (h : s.Sound) (hm : s.mode = .template) (hc : c ≠ '\n')
    (next : Option Char) :
    Turn s c next (s.lexer.advance.stepTemplate c next)
      ({ s with column := s.column + 1 }.stepTemplate c next) := by
  unfold Lexer.stepTemplate State.stepTemplate
  split_ifs with h1 h2 h3 h4
  · exact turn_silent hc next fun _ _ => hm
  · exact turn_silent hc next fun _ hd => absurd h2.2.2 hd
  · exact .openInterpolation h3.1 h3.2 hm rfl rfl
  · obtain ⟨below, top, hs, hk, -⟩ := h.layered.exists_push h4.2
    simp only [hs, OpenStack.removeNearest?_push hk]
    exact .closeInterpolation h4.1 hm h4.2 rfl hs hk
  · exact turn_silent hc next fun _ _ => hm

/-- **A step of a scan and the step of its lexer are one turn.** -/
theorem turn (h : s.Sound) (c : Char) (next : Option Char) :
    Turn s c next (s.lexer.step c next) (s.step c next) := by
  unfold Lexer.step State.step
  by_cases hc : c = '\n'
  · simp only [if_pos hc]
    exact .silent (by simp [Lexer.place, Lexer.newLine, walk, hc]) rfl fun hm _ => by
      simp [Lexer.newLine, hm]
  simp only [if_neg hc]
  obtain ⟨line, column, mode, escaped, depth, stack⟩ := s
  cases mode with
  | code => exact h.turn_code rfl hc next
  | lineComment => exact turn_silent hc next nofun
  | blockComment =>
    unfold Lexer.stepInLine State.stepInLine
    dsimp only
    split_ifs
    · exact turn_silent hc next nofun
    · exact turn_silent hc next nofun
  | singleQuoted => exact turn_quoted (by simp) hc next _
  | doubleQuoted => exact turn_quoted (by simp) hc next _
  | template => exact h.turn_template rfl hc next

end State.Sound

/-- What a turn leaves is sound again. -/
theorem Turn.sound {s t : State} {c : Char} {next : Option Char} {lexed : Lexer × Option Marker}
    {event : Option Event} (h : Turn s c next lexed (.next t event)) (hs : s.Sound) : t.Sound := by
  have hcode : s.mode = .code → s.depth = 0 := fun hm => hs.idle (by simp [hm])
  cases h with
  | @silent y _ depth stay =>
    refine ⟨?_, fun hy => depth.trans ?_⟩
    · change s.stack.Layered y.depth
      exact depth ▸ hs.layered
    · by_cases hm : s.mode = .template
      · exact Classical.byContradiction fun hd => hy (stay hm hd)
      · exact hs.idle hm
  | openBrace _ code lexer opener =>
    subst lexer opener
    exact ⟨by simpa [hcode code] using (hcode code ▸ hs.layered).push_brace _, hs.idle⟩
  | closeBrace _ code lexer stack _ =>
    subst lexer
    exact ⟨by simpa [hcode code] using (stack ▸ hcode code ▸ hs.layered).of_push.2, hs.idle⟩
  | openInterpolation _ _ template lexer opener =>
    subst lexer opener
    exact ⟨.interpolation rfl hs.layered, fun hm => absurd template hm⟩
  | closeInterpolation _ template depth lexer stack _ =>
    subst lexer
    obtain ⟨_, _, hpush, -, hbelow⟩ := hs.layered.exists_push depth
    obtain ⟨rfl, rfl⟩ := OpenStack.push_inj.1 (stack.symm.trans hpush)
    exact ⟨hbelow, fun hm => absurd template hm⟩

/-- A turn halts in code with nothing open. -/
theorem Turn.of_halt {s : State} {c : Char} {next : Option Char} {lexed : Lexer × Option Marker}
    {closing : Position} (h : Turn s c next lexed (.halt closing)) :
    s.mode = .code ∧ s.stack = .empty := by
  cases h with
  | halt _ code _ stack => exact ⟨code, stack⟩

/-! ## Every state of a scan -/

/-- All that a scan moves through is sound. -/
theorem Moves.sound {s : State} {cs : List Char} {config : State × List Char}
    (h : Moves (s, cs) config) (hs : s.Sound) : config.1.Sound := by
  induction h with
  | refl => exact hs
  | tail _ move ih =>
    cases move with
    | @read s t c rest event h => exact Turn.sound (h ▸ ih.turn c rest.head?) ih

/-- A state that a scan ends in is sound. -/
theorem State.sound_of_outcome {t : State} {w : List Char} (h : State.start.outcome w = .ended t) :
    t.Sound := by
  rcases State.start.outcome_moves w with ⟨u, hu, hmoves⟩ | ⟨u, c, rest, closing, hu, -⟩
  · rw [h] at hu
    cases hu
    exact hmoves.sound State.sound_start
  · rw [h] at hu
    cases hu

/-- The openers in a verdict on a source: braces, and then interpolations. -/
theorem scan_opened_layers (src : Bytes) :
    ∃ braces interpolations : List Opener, (scan src).opened = braces ++ interpolations ∧
      (∀ o ∈ braces, o.kind = .brace) ∧ (∀ o ∈ interpolations, o.kind = .interpolation) ∧
      (scan src).opened.countP (·.kind = .interpolation) = interpolations.length := by
  rw [scan_eq_verdict]
  rcases State.start.outcome_moves (Utf8.decode src) with
    ⟨t, hended, hmoves⟩ | ⟨t, c, rest, closing, hhalted, -⟩
  · have hlayered := (hmoves.sound State.sound_start).layered
    obtain ⟨bs, is, heq, hb, hi, hlength⟩ := hlayered.entries_eq
    rw [hended, Outcome.opened_verdict]
    exact ⟨bs, is, heq, hb, hi, hlayered.countP_entries.trans hlength.symm⟩
  · rw [hhalted]
    exact ⟨[], [], rfl, nofun, nofun, rfl⟩

/-- **The openers of a scan lie in two layers**, whatever the source and wherever the scan is: the
depth counts the interpolations, which are there in a template only and lie over all braces.  So a
closing brace that ends an interpolation takes the newest opener, and one in code never takes an
interpolation. -/
theorem openers_in_layers {src : Bytes} {s : State} {rest : List Char}
    (h : Moves (.start, Utf8.decode src) (s, rest)) :
    s.depth = s.stack.entries.countP (·.kind = .interpolation) ∧
      (s.mode ≠ .template → s.depth = 0) ∧
      (∃ braces interpolations : List Opener, s.stack.entries = braces ++ interpolations ∧
        (∀ o ∈ braces, o.kind = .brace) ∧ ∀ o ∈ interpolations, o.kind = .interpolation) ∧
      (s.mode = .template → 0 < s.depth → ∃ top below, top.kind = .interpolation ∧
        s.stack.pop? = some (top, below) ∧
        s.stack.removeNearest? .interpolation = some (top, below) ∧
        ∀ next, s.step '\x7d' next = .next
          { s with column := s.column + 1, depth := s.depth - 1, stack := below, escaped := false }
          (some (.closeInterpolation top.position))) ∧
      (s.mode = .code → ∀ top below, s.stack.pop? = some (top, below) → top.kind = .brace ∧
        ∀ next, s.step '\x7d' next = .next { s with column := s.column + 1, stack := below }
          (some (.pop ⟨s.line, s.column + 1⟩))) := by
  have hs : s.Sound := h.sound State.sound_start
  obtain ⟨braces, interpolations, heq, hb, hi, -⟩ := hs.layered.entries_eq
  refine ⟨hs.layered.countP_entries.symm, hs.idle, ⟨braces, interpolations, heq, hb, hi⟩, ?_, ?_⟩
  · intro hm hd
    obtain ⟨below, top, hpush, hk, -⟩ := hs.layered.exists_push hd
    have hremove : s.stack.removeNearest? .interpolation = some (top, below) := by
      rw [hpush, OpenStack.removeNearest?_push hk]
    refine ⟨top, below, hk, by rw [hpush, OpenStack.pop?_push], hremove, fun next => ?_⟩
    simp [State.step, State.stepInLine, State.stepTemplate, hm, hd, hremove]
  · intro hm top below hpop
    have hlayers : s.stack.Layered 0 := hs.idle (by simp [hm]) ▸ hs.layered
    rcases s.stack.eq_empty_or_push with hempty | ⟨below', top', hpush⟩
    · simp [hempty] at hpop
    · rw [hpush, OpenStack.pop?_push] at hpop
      obtain ⟨rfl, rfl⟩ := Prod.mk.inj (Option.some.inj hpop)
      refine ⟨(hpush ▸ hlayers).of_push.1, fun next => ?_⟩
      simp [State.step, State.stepInLine, State.stepCode, Mode.opened?, State.here, hm, hpush]

/-- Before the last character of a brace, a quotation mark and an interpolation begun and ended. -/
theorem openers_in_layers_before_close :
    ∃ s : State, Moves (.start, Utf8.decode [0x7b, 0x60, 0x24, 0x7b, 0x7d]) (s, ['\x7d']) ∧
      s.mode = .template ∧ s.depth = 1 ∧ s.stack.size = 2 ∧
      s.stack.removeNearest? .interpolation = s.stack.pop? := by
  have h : Moves (.start, Utf8.decode [0x7b, 0x60, 0x24, 0x7b, 0x7d])
      ({ line := 1, column := 4, mode := .template, depth := 1,
         stack := ⟨[⟨⟨1, 3⟩, .interpolation⟩, ⟨⟨1, 1⟩, .brace⟩]⟩ }, ['\x7d']) :=
    (((Relation.ReflTransGen.refl.tail (.read rfl)).tail (.read rfl)).tail (.read rfl)).tail
      (.read rfl)
  obtain ⟨top, below, -, hpop, hremove, -⟩ := (openers_in_layers h).2.2.2.1 rfl Nat.one_pos
  exact ⟨_, h, rfl, rfl, rfl, hremove.trans hpop.symm⟩

end BraceBalance
