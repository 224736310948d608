import BraceBalance.Proofs.Scan.Continuation
import BraceBalance.Proofs.Scan.Likeness

/-!
# Proofs/Scan/Chunks — a source in chunks of whole lines

    p ++ s ──scan──▸ verdict   =   openers of p,  then  s ──scan──▸ verdict, lowered by the lines of p

Behind a line break a scan in code knows the line it is in and the openers it holds, and nothing
else of what it has read.  Lines are only counted, so from there on it meets the markers that a scan
from the start meets, each lowered by the lines above (`Lexer.markers_lowered`), and closers take
the openers held only where a scan from the start has none to take
(`firstSurplus?_openings_append`).
-/

namespace BraceBalance

/-! ## Lexers on lower lines

No step looks at the line, so it is carried along. -/

/-- A place, some lines further down. -/
def Position.lowered (lines : Nat) (p : Position) : Position := { p with line := p.line + lines }

namespace Lexer

/-- A lexer that is some lines further down. -/
def lowered (lines : Nat) (x : Lexer) : Lexer := { x with line := x.line + lines }

/-- What a lexer makes of a character, some lines further down. -/
def lowerMet (lines : Nat) (met : Lexer × Option Marker) : Lexer × Option Marker :=
  (met.1.lowered lines, met.2.map (·.moved (·.lowered lines)))

variable (x : Lexer) (lines : Nat) (c : Char) (next : Option Char)

/-- In code a lexer some lines further down does the same there. -/
theorem stepCode_lowered :
    (x.lowered lines).stepCode c next = lowerMet lines (x.stepCode c next) := by
  unfold stepCode
  cases Mode.opened? c with
  | some mode => simp only [apply_ite (lowerMet lines)]; rfl
  | none => simp only [apply_ite (lowerMet lines)]; rfl

theorem stepQuoted_lowered (closer : Char) :
    (x.lowered lines).stepQuoted closer c = lowerMet lines (x.stepQuoted closer c) := by
  unfold stepQuoted
  simp only [apply_ite (lowerMet lines)]
  rfl

/-- So does it in a template. -/
theorem stepTemplate_lowered :
    (x.lowered lines).stepTemplate c next = lowerMet lines (x.stepTemplate c next) := by
  unfold stepTemplate
  simp only [apply_ite (lowerMet lines)]
  rfl

theorem stepInLine_lowered :
    (x.lowered lines).stepInLine c next = lowerMet lines (x.stepInLine c next) := by
  have hmode : (x.lowered lines).mode = x.mode := rfl
  unfold stepInLine
  rw [hmode]
  cases x.mode with
  | code => exact x.stepCode_lowered lines c next
  | lineComment => rfl
  | blockComment =>
    dsimp only
    split_ifs
    · rfl
    · rfl
  | singleQuoted => exact x.stepQuoted_lowered lines c _
  | doubleQuoted => exact x.stepQuoted_lowered lines c _
  | template => exact x.stepTemplate_lowered lines c next

/-- No character is read otherwise some lines further down. -/
theorem step_lowered : (x.lowered lines).step c next = lowerMet lines (x.step c next) := by
  unfold step
  by_cases hn : c = '\n'
  · have hline : (x.lowered lines).newLine = x.newLine.lowered lines :=
      congrArg (fun line => { x.newLine with line }) (Nat.add_right_comm x.line lines 1)
    rw [if_pos hn, if_pos hn, hline]
    rfl
  · rw [if_neg hn, if_neg hn]
    exact x.advance.stepInLine_lowered lines c next

/-- **Some lines further down a lexer meets the same markers, that many lines lower.** -/
theorem markers_lowered (cs : List Char) :
    (x.lowered lines).markers cs = (x.markers cs).map (·.moved (·.lowered lines)) := by
  induction cs generalizing x with
  | nil => rfl
  | cons c rest ih =>
    rw [markers, markers, step_lowered, lowerMet, List.map_append, ih, Option.toList_map]

end Lexer

/-! ## On top of openers -/

/-- A closing brace that is not too many is not too many behind openers either. -/
theorem firstSurplus?_openings_append (base : List Opener) {seen ms : List Marker}
    (h : firstSurplus? seen ms = none) : firstSurplus? (base.map .opening ++ seen) ms = none := by
  induction ms generalizing seen with
  | nil => rfl
  | cons m ms ih =>
    have hfew : ∀ ms : List Marker, surplus (base.map .opening ++ ms) = true →
        surplus ms = true := by
      intro ms hmany
      have hcloses : (base.map Marker.opening).countP (·.isClosingBrace) = 0 := by
        simp [List.countP_map, Function.comp_def, Marker.isClosingBrace]
      rw [surplus, decide_eq_true_iff, List.countP_append, List.countP_append, hcloses] at hmany
      rw [surplus, decide_eq_true_iff]
      omega
    rw [firstSurplus?] at h ⊢
    rw [List.append_assoc]
    split_ifs at h with hm
    rw [if_neg fun hm' => hm ⟨hm'.1, hfew _ hm'.2⟩]
    exact ih h

/-! ## Behind a line break

What a scan has noted ends with the line: a backslash, a line comment and the column. -/

/-- A text has as many line breaks among its characters as among its bytes. -/
theorem count_decode (p : Bytes) : (Utf8.decode p).count '\n' = p.count Lines.lf := by
  induction p using Lines.line_induction with
  | last a hlf =>
    rw [List.count_eq_zero_of_not_mem hlf,
      List.count_eq_zero_of_not_mem (newline_not_mem_decode hlf)]
  | line a rest hlf ih =>
    rw [decode_append_lf, List.count_append, List.count_append, List.count_cons_self,
      List.count_cons_self, ih, List.count_eq_zero_of_not_mem hlf,
      List.count_eq_zero_of_not_mem (newline_not_mem_decode hlf)]

/-- Characters lead down by a line for each line break. -/
theorem fst_foldl_walk (cs : List Char) (place : Nat × Nat) :
    (cs.foldl walk place).1 = place.1 + cs.count '\n' := by
  induction cs generalizing place with
  | nil => rfl
  | cons c cs ih =>
    rw [List.foldl_cons, ih, List.count_cons]
    by_cases hc : c = '\n'
    · simp only [hc, walk_newline, beq_self_eq_true, if_true]
      omega
    · simp [walk_of_ne hc, hc]

/-- A scan that comes to the end of a text is at the place that its characters lead to. -/
theorem State.place_of_outcome {t : State} {w : List Char}
    (h : State.start.outcome w = .ended t) : t.lexer.place = w.foldl walk (1, 0) := by
  rcases State.start.outcome_moves w with ⟨u, hu, hmoves⟩ | ⟨u, c, rest, closing, hu, -⟩
  · obtain rfl := Outcome.ended.inj (h.symm.trans hu)
    obtain ⟨seen, hseen, hplace⟩ := (Faithful.of_moves hmoves).reached
    rw [hplace, hseen, List.append_nil]
  · cases h.symm.trans hu

/-- **Behind a line break in code a scan starts afresh**, but for the lines above and the
openers. -/
theorem State.ended_of_line {p : Bytes} {t : State} (hline : p.getLast? = some Lines.lf)
    (h : State.start.outcome (Utf8.decode p) = .ended t) (hcode : t.mode = .code) :
    t.Sound ∧ t.lexer = Lexer.start.lowered (p.count Lines.lf) ∧
      ∀ s, State.start.outcome (Utf8.decode (p ++ s)) = t.outcome (Utf8.decode s) := by
  obtain ⟨q, rfl⟩ := List.getLast?_eq_some_iff.1 hline
  have hsound := State.sound_of_outcome h
  have hplace := State.place_of_outcome h
  have hoverlooked : ∀ rest, Overlooked ('\n' :: rest : List Char).head? := fun rest => by
    simp [Overlooked]
  have hcut : ∀ s, State.start.outcome (Utf8.decode (q ++ [Lines.lf] ++ s)) =
      (State.start.outcome (Utf8.decode q)).andThen ('\n' :: Utf8.decode s) := fun s => by
    rw [List.append_assoc, List.singleton_append, decode_append_lf,
      State.outcome_append_of_overlooked (hoverlooked _)]
  have hlast := hcut []
  rw [List.append_nil, h] at hlast
  cases hq : State.start.outcome (Utf8.decode q) with
  | halted closing =>
    rw [hq] at hlast
    cases hlast
  | ended u =>
    rw [hq] at hlast
    obtain rfl : t = u.newLine := Outcome.ended.inj hlast
    refine ⟨hsound, ?_, fun s => ?_⟩
    · have hdepth : u.newLine.depth = 0 := hsound.idle (by simp [hcode])
      have hnumber : u.newLine.line = 1 + (q ++ [Lines.lf]).count Lines.lf := by
        rw [← count_decode, ← fst_foldl_walk _ (1, 0), ← hplace]
        rfl
      rw [State.lexer, hdepth, hcode, hnumber]
      rfl
    · rw [hcut, hq]
      exact State.outcome_of_next rfl

/-! ## Chunks -/

/-- The verdict of a run that comes to the end tells the openers that are left. -/
theorem Outcome.verdict_ended (s : State) :
    (ended s).verdict =
      if s.stack.entries = [] then .allMatched else .unmatchedOpen s.stack.entries := by
  have hnone : s.stack.size = 0 ↔ s.stack.entries = [] := by
    rw [← s.stack.length_entries, List.length_eq_zero_iff]
  simp only [Outcome.verdict, hnone]

/-- Unless a closing brace is too many, matching leaves the openers of the verdict and no closer. -/
theorem matching_markers {s : Bytes} (h : (scan s).kind ≠ .unexpectedClosing) :
    firstSurplus? [] (markers s) = none ∧ matching (markers s) = ((scan s).opened, 0) := by
  have htells : (State.start.outcome (Utf8.decode s)).Tells [] (markers s) :=
    State.outcome_tells State.sound_start .refl _
  rw [scan_eq_verdict] at h ⊢
  cases houtcome : State.start.outcome (Utf8.decode s) with
  | halted closing =>
    rw [houtcome] at h
    exact absurd rfl h
  | ended u =>
    rw [houtcome] at htells
    rw [Outcome.opened_verdict, ← matching_map_opening]
    exact ⟨htells.1, matching_eq_of_cancels htells.2⟩

/-- **Chunks of whole lines are scanned one by one.**  Say a source begins with lines that leave the
scan in code, with some openers.  If the rest alone has no closing brace too many, the openers of
the whole are those and then the ones of the rest, lowered by the lines above; and if the first
lines leave no openers, the verdict on the whole is that on the rest, lowered. -/
theorem scan_chunk_by_chunk {p : Bytes} {t : State} (hline : p.getLast? = some Lines.lf)
    (hp : State.start.outcome (Utf8.decode p) = .ended t) (hcode : t.mode = .code) (s : Bytes) :
    let lower := Position.lowered (p.count Lines.lf)
    let opened := t.stack.entries ++ (scan s).opened.map (·.moved lower)
    ((scan s).kind ≠ .unexpectedClosing →
      scan (p ++ s) = if opened = [] then .allMatched else .unmatchedOpen opened) ∧
    (t.stack.entries = [] → scan (p ++ s) = (scan s).moved lower) := by
  intro lower opened
  obtain ⟨hsound, hlexer, hrest⟩ := State.ended_of_line hline hp hcode
  have hmarkers : t.lexer.markers (Utf8.decode s) = (markers s).map (·.moved lower) := by
    rw [hlexer, Lexer.markers_lowered]
    rfl
  have htells : (t.outcome (Utf8.decode s)).Tells (t.stack.entries.map .opening)
      ((markers s).map (·.moved lower)) := hmarkers ▸ State.outcome_tells hsound .refl _
  have halone : (State.start.outcome (Utf8.decode s)).Tells [] (markers s) :=
    State.outcome_tells State.sound_start .refl _
  rw [scan_eq_verdict (p ++ s), hrest]
  refine ⟨fun hkind => ?_, fun hnone => ?_⟩
  · obtain ⟨hfirst, hmatching⟩ := matching_markers hkind
    have hfew : firstSurplus? (t.stack.entries.map .opening) ((markers s).map (·.moved lower)) =
        none := by
      have hmoved := firstSurplus?_map_moved lower [] (markers s)
      rw [hfirst] at hmoved
      simpa using firstSurplus?_openings_append t.stack.entries hmoved
    have hleft : unclosed (t.stack.entries.map .opening ++ (markers s).map (·.moved lower)) =
        opened := by
      rw [unclosed, matching_append_openings, matching_map_moved, hmatching, Nat.sub_zero,
        List.take_length]
    generalize t.outcome (Utf8.decode s) = outcome at htells ⊢
    cases outcome with
    | halted closing => cases hfew.symm.trans htells
    | ended u => rw [Outcome.verdict_ended, ← htells.2.unclosed_eq, hleft]
  · rw [hnone] at htells
    rw [htells.verdict_eq, judge_map_moved, ← halone.verdict_eq]
    rfl

/-- Below an open brace, an open interpolation; below a closed one, a closing brace too many. -/
theorem scan_chunk_by_chunk_lines :
    scan "\x7b\\\n`$\x7b" = .unmatchedOpen [⟨⟨1, 1⟩, .brace⟩, ⟨⟨2, 2⟩, .interpolation⟩] ∧
      scan "\x7b\n\x7d\n\x7d" = .unexpectedClosing ⟨3, 1⟩ := by
  have hopen := (scan_chunk_by_chunk (p := "\x7b\\\n") rfl rfl rfl "`$\x7b").1 (by decide)
  have hclosed := (scan_chunk_by_chunk (p := "\x7b\n\x7d\n") rfl rfl rfl "\x7d").2 rfl
  exact ⟨hopen, hclosed⟩

end BraceBalance
