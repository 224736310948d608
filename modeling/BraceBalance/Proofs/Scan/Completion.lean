import BraceBalance.Proofs.Scan.Continuation
import BraceBalance.Proofs.Scan.Grammar

/-!
# Proofs/Scan/Completion — the openers of a verdict are what is missing

    src ──scan──▸ braces, interpolations open ──closers──▸ code, braces open ──closers──▸ verdict

An opener left over says how to go on.  Interpolations lie over the braces and are open in a template
only, so as many closing braces as there are of them and a backquote lead back to code, whatever the
text ended with (`OpenStack.Layered.exists_takes_closers`).  In code a closing brace closes the
newest brace, until one finds none (`State.In.after_closers`).
-/

namespace BraceBalance

/-- What a verdict says once `j` closing braces have been read in code with these braces open: as
many as there are match everything, fewer leave the oldest braces, and one too many is unexpected. -/
def Verdict.After (braces : List Opener) (j : Nat) (v : Verdict) : Prop :=
  (j = braces.length → v = .allMatched) ∧
    (j < braces.length → v = .unmatchedOpen (braces.take (braces.length - j))) ∧
    (braces.length < j → v.kind = .unexpectedClosing)

/-- Closing braces behind `src` are closers of these braces. -/
def Awaits (src : Bytes) (braces : List Opener) : Prop :=
  ∀ j, (scan (src ++ List.replicate j 0x7d)).After braces j

/-! ## Closing braces in code

Each closing brace takes one brace, so what is left is found by induction on their number. -/

/-- At the end of a text, before any closer, a verdict leaves the braces that are open. -/
theorem Verdict.After.of_ended (s : State) : (Outcome.ended s).verdict.After s.stack.entries 0 := by
  rw [Verdict.After, s.stack.length_entries, Outcome.verdict]
  refine ⟨fun h => if_pos h.symm, fun h => ?_, fun h => absurd h (Nat.not_lt_zero _)⟩
  rw [if_neg (Nat.ne_of_gt h), Nat.sub_zero, ← s.stack.length_entries, List.take_length]

/-- One brace and one closer more. -/
theorem Verdict.After.succ {braces : List Opener} {j : Nat} {v : Verdict} (h : v.After braces j)
    (o : Opener) : v.After (braces ++ [o]) (j + 1) := by
  obtain ⟨hall, hfew, hmany⟩ := h
  rw [Verdict.After, List.length_append, List.length_singleton, Nat.add_sub_add_right,
    List.take_append_of_le_length (Nat.sub_le _ _)]
  exact ⟨fun h => hall (by omega), fun h => hfew (by omega), fun h => hmany (by omega)⟩

/-- **In code closing braces close the newest braces, until none is left.** -/
theorem State.In.after_closers {stack : OpenStack} {s : State} (h : State.In .code 0 stack s)
    (j : Nat) : (s.outcome (List.replicate j '\x7d')).verdict.After stack.entries j := by
  induction j generalizing stack s with
  | zero => exact h.stack_eq ▸ Verdict.After.of_ended s
  | succ j ih =>
    rw [List.replicate_succ]
    rcases stack.eq_empty_or_push with rfl | ⟨below, top, rfl⟩
    · rw [State.outcome_of_halt (s.step_unexpected h.mode_eq h.stack_eq _)]
      exact ⟨fun h => absurd h (Nat.succ_ne_zero j), fun h => absurd h (Nat.not_lt_zero _),
        fun _ => rfl⟩
    · obtain ⟨t, event, hstep, ht⟩ := State.In.steps_closeBrace top s h
      rw [State.outcome_of_next hstep, OpenStack.entries_push]
      exact (ih ht).succ top

/-! ## Closing interpolations

In a template the interpolations are on top, and a closing brace takes one of them. -/

namespace OpenStack.Layered

variable {stack : OpenStack}

/-- Without interpolations all that is open are braces. -/
theorem filter_entries (h : stack.Layered 0) :
    stack.entries.filter (·.kind = .brace) = stack.entries := by
  cases h with
  | braces h =>
    exact List.filter_eq_self.2 fun o ho => decide_eq_true (h o (List.mem_reverse.1 ho))

/-- An interpolation more leaves the braces as they are. -/
theorem filter_entries_push {o : Opener} (h : o.kind = .interpolation) :
    (stack.push o).entries.filter (·.kind = .brace) = stack.entries.filter (·.kind = .brace) := by
  simp [h]

/-- A closing brace for each interpolation leaves the template with the braces below. -/
theorem exists_takes {depth : Nat} (h : stack.Layered depth) :
    ∃ base : OpenStack, base.entries = stack.entries.filter (·.kind = .brace) ∧
      ∀ rest, Takes (State.Fresh .template depth stack) (List.replicate depth '\x7d') rest
        (State.Fresh .template 0 base) := by
  induction h with
  | @braces stack h => exact ⟨stack, (filter_entries (.braces h)).symm, fun _ => .nil⟩
  | interpolation h _ ih =>
    obtain ⟨base, hbase, htakes⟩ := ih
    refine ⟨base, hbase.trans (filter_entries_push h).symm, fun rest => ?_⟩
    exact .cons ((Template.steps_closeInterpolation h).imp (fun _ => State.Fresh.toIn) fun _ => id)
      (htakes rest)

/-- **A closing brace for each interpolation, and a backquote, lead back to code.**  A backslash may
be pending before the first of them. -/
theorem exists_takes_closers {depth : Nat} (h : stack.Layered depth) (hd : 0 < depth) :
    ∃ base : OpenStack, base.entries = stack.entries.filter (·.kind = .brace) ∧
      ∀ rest, Takes (State.In .template depth stack) (List.replicate depth '\x7d' ++ ['\x60']) rest
        (State.In .code 0 base) := by
  cases h with
  | braces => exact absurd hd (Nat.lt_irrefl 0)
  | interpolation h below =>
    obtain ⟨base, hbase, htakes⟩ := below.exists_takes
    refine ⟨base, hbase.trans (filter_entries_push h).symm, fun rest => ?_⟩
    exact (Takes.cons (Template.steps_closeInterpolation h) (htakes _)).append
      (.cons Template.steps_close .nil)

end OpenStack.Layered

/-! ## Behind a source -/

theorem overlooked_replicate (j : Nat) : Overlooked (List.replicate j '\x7d').head? := by
  cases j with
  | zero => exact ⟨nofun, nofun, nofun⟩
  | succ j => exact overlooked_closing _

/-- Closing braces behind a source are characters by themselves, even behind half a character. -/
theorem decode_append_closers (src : Bytes) (j : Nat) :
    Utf8.decode (src ++ List.replicate j 0x7d) = Utf8.decode src ++ List.replicate j '\x7d' := by
  have hascii : ∀ b ∈ List.replicate j (0x7d : UInt8), b < 0x80 := fun b hb => by
    rw [List.eq_of_mem_replicate hb]
    decide
  rw [Utf8.decode_append_of_ascii hascii, List.map_replicate]
  rfl

/-- A source that is scanned to code awaits closers of the braces it leaves open. -/
theorem Awaits.of_code {src : Bytes} {t : State}
    (h : State.start.outcome (Utf8.decode src) = .ended t) (hcode : t.mode = .code) :
    Awaits src t.stack.entries := by
  intro j
  have hdepth : t.depth = 0 := (State.sound_of_outcome h).idle (by simp [hcode])
  have hin : State.In .code 0 t.stack t := ⟨hcode, hdepth, rfl⟩
  rw [scan_eq_verdict, decode_append_closers,
    State.outcome_append_of_overlooked (overlooked_replicate j), h]
  exact hin.after_closers j

/-- Behind a source that leaves interpolations open, closers of them and a backquote lead to code. -/
theorem exists_outcome_closers {src : Bytes} {t : State}
    (h : State.start.outcome (Utf8.decode src) = .ended t) (hd : 0 < t.depth) :
    ∃ u : State, u.mode = .code ∧ u.stack.entries = t.stack.entries.filter (·.kind = .brace) ∧
      State.start.outcome
        (Utf8.decode (src ++ (List.replicate t.depth 0x7d ++ [0x60]))) = .ended u := by
  have hsound := State.sound_of_outcome h
  have hmode : t.mode = .template := Classical.byContradiction fun hm => by
    have hidle := hsound.idle hm
    omega
  obtain ⟨base, hbase, htakes⟩ := hsound.layered.exists_takes_closers hd
  obtain ⟨u, hmoves, hu⟩ := htakes [] t ⟨hmode, rfl, rfl⟩
  rw [List.append_nil] at hmoves
  refine ⟨u, hu.mode_eq, by rw [hu.stack_eq, hbase], ?_⟩
  have hdecode : Utf8.decode (src ++ (List.replicate t.depth 0x7d ++ [0x60])) =
      Utf8.decode src ++ (List.replicate t.depth '\x7d' ++ ['\x60']) := by
    rw [← List.append_assoc, Utf8.decode_append_ascii (by decide), decode_append_closers,
      List.append_assoc]
    rfl
  have hoverlooked : Overlooked (List.replicate t.depth '\x7d' ++ ['\x60']).head? := by
    obtain ⟨depth, hdepth⟩ := Nat.exists_eq_add_of_lt hd
    rw [hdepth, Nat.zero_add, List.replicate_succ]
    exact overlooked_closing _
  rw [hdecode, State.outcome_append_of_overlooked hoverlooked, h]
  exact hmoves.outcome_eq

/-- **The openers of a verdict say exactly what is missing.**  If interpolations are open, a closing
brace for each and a backquote behind the source leave the braces that were open, in code; if none
are and the scan has come to code, the source itself does.  From there as many closing braces as
there are braces match everything, fewer leave the oldest braces, and more are unexpected. -/
theorem openers_are_missing_closers (src : Bytes) :
    let braces := (scan src).opened.filter (·.kind = .brace)
    let depth := (scan src).opened.countP (·.kind = .interpolation)
    (0 < depth → Awaits (src ++ (List.replicate depth 0x7d ++ [0x60])) braces) ∧
      (depth = 0 → ∀ t, State.start.outcome (Utf8.decode src) = .ended t → t.mode = .code →
        Awaits src braces) := by
  intro braces depth
  cases houtcome : State.start.outcome (Utf8.decode src) with
  | halted closing =>
    have hnone : (scan src).opened = [] := by
      rw [scan_eq_verdict, houtcome]
      rfl
    refine ⟨fun hd => ?_, fun _ t ht => nomatch ht⟩
    exact absurd hd (by simp [depth, hnone])
  | ended t =>
    have hlayered := (State.sound_of_outcome houtcome).layered
    have hopened : (scan src).opened = t.stack.entries := by
      rw [scan_eq_verdict, houtcome, Outcome.opened_verdict]
    have hdepth : depth = t.depth := by rw [← hlayered.countP_entries, ← hopened]
    refine ⟨fun hd => ?_, fun hd u hu hcode => ?_⟩
    · rw [hdepth] at hd ⊢
      obtain ⟨u, hcode, hentries, hu⟩ := exists_outcome_closers houtcome hd
      have hbraces : braces = u.stack.entries := by rw [hentries, ← hopened]
      exact hbraces ▸ Awaits.of_code hu hcode
    · obtain rfl := Outcome.ended.inj hu
      have hbraces : braces = t.stack.entries := by
        have hlayers : t.stack.Layered 0 := hd ▸ hdepth ▸ hlayered
        rw [← hlayers.filter_entries, ← hopened]
      exact hbraces ▸ Awaits.of_code houtcome hcode

example : scan ([0x7b, 0x60, 0x24, 0x7b, 0x5c] ++ ([0x7d] ++ [0x60])) =
    .unmatchedOpen [⟨⟨1, 1⟩, .brace⟩] := by decide

end BraceBalance
