import BraceBalance.Proofs.Scan.Layers

/-!
# Proofs/Scan/Matching — a scan is a lexer and the matching of its markers

    source ──lexer──▸ markers ──count and match──▸ verdict

`judge` knows markers only.  It counts the braces in code to find the first closing one too many,
and pairs closers with openers from the inside out to find the openers left over.  The verdict of a
scan, which keeps openers while it reads and stops early, is the judgement on all the markers of
the source.

What ties the two is cancelling: neighbours of one kind, an opener and its closer, are struck out
until only openers remain.  A scan holds at each place what that leaves of the markers met so far,
and `unclosed` computes what it leaves.
-/

namespace BraceBalance

/-! ## Counting -/

namespace Marker

/-- Whether a marker opens something. -/
def isOpening : Marker → Bool
  | opening _ => true
  | closing _ _ => false

/-- Whether a marker closes something. -/
def isClosing : Marker → Bool
  | opening _ => false
  | closing _ _ => true

/-- Whether a marker is an opening brace in code. -/
def isOpeningBrace : Marker → Bool
  | opening o => o.kind = .brace
  | closing _ _ => false

/-- Whether a marker is a closing brace in code. -/
def isClosingBrace : Marker → Bool
  | opening _ => false
  | closing kind _ => kind = .brace

end Marker

/-- Whether the closing braces in code outnumber the opening ones. -/
def surplus (ms : List Marker) : Bool := ms.countP (·.isOpeningBrace) < ms.countP (·.isClosingBrace)

/-- The first closing brace in code at which such braces so far outnumber the opening ones so far,
among markers that follow the markers `seen`. -/
def firstSurplus? (seen : List Marker) : List Marker → Option Position
  | [] => none
  | m :: ms =>
    if m.isClosingBrace ∧ surplus (seen ++ [m]) then some m.position
    else firstSurplus? (seen ++ [m]) ms

/-! ## Matching

Pairs may be struck out in any order, since what matching leaves is the same before and after
each. -/

/-- The openers that no closer takes, each closer taking the innermost opener still free before it,
and how many closers find none. -/
def matching : List Marker → List Opener × Nat
  | [] => ([], 0)
  | .closing _ _ :: ms => ((matching ms).1, (matching ms).2 + 1)
  | .opening o :: ms =>
    match matching ms with
    | (left, 0) => (o :: left, 0)
    | (left, closers + 1) => (left, closers)

/-- The openers that no closer takes, in the order they stand. -/
def unclosed (ms : List Marker) : List Opener := (matching ms).1

/-- The verdict on a run of markers. -/
def judge (ms : List Marker) : Verdict :=
  match firstSurplus? [] ms with
  | some closing => .unexpectedClosing closing
  | none =>
    if ms.countP (·.isOpening) = ms.countP (·.isClosing) then .allMatched
    else .unmatchedOpen (unclosed ms)

/-- An opener and a closer of its kind that stand side by side are struck out. -/
inductive Cancels : List Marker → List Marker → Prop
  | pair (before after : List Marker) (o : Opener) (p : Position) :
      Cancels (before ++ .opening o :: .closing o.kind p :: after) (before ++ after)

/-- Striking out leaves these openers and nothing else. -/
abbrev CancelsTo (ms : List Marker) (left : List Opener) : Prop :=
  Relation.ReflTransGen Cancels ms (left.map .opening)

/-- What is struck out in a text is struck out with more behind it. -/
theorem Cancels.append {ms ms' : List Marker} (h : Cancels ms ms') (more : List Marker) :
    Cancels (ms ++ more) (ms' ++ more) := by
  obtain ⟨before, after, o, p⟩ := h
  rw [List.append_assoc, List.append_assoc]
  exact .pair before (after ++ more) o p

/-- Striking out a pair does not change what matching leaves. -/
theorem Cancels.matching_eq {ms ms' : List Marker} (h : Cancels ms ms') :
    matching ms = matching ms' := by
  obtain ⟨before, after, o, p⟩ := h
  induction before with
  | nil => simp [matching]
  | cons m before ih => cases m <;> simp only [List.cons_append, matching, ih]

/-- Nor does striking out any number of pairs. -/
theorem matching_eq_of_cancels {ms ms' : List Marker} (h : Relation.ReflTransGen Cancels ms ms') :
    matching ms = matching ms' := by
  induction h with
  | refl => rfl
  | tail _ hc ih => exact ih.trans hc.matching_eq

theorem matching_map_opening (left : List Opener) :
    matching (left.map .opening) = (left, 0) := by
  induction left with
  | nil => rfl
  | cons o left ih => simp [matching, ih]

namespace CancelsTo

variable {ms : List Marker} {left : List Opener} {o : Opener}

/-- An opener more is left. -/
theorem append_opening (h : CancelsTo ms left) (o : Opener) :
    CancelsTo (ms ++ [.opening o]) (left ++ [o]) := by
  have happend := h.lift (· ++ [.opening o]) fun _ _ hc => hc.append [.opening o]
  rwa [CancelsTo, List.map_append]

/-- A closer more strikes out the last opener that was left, if it is of its kind. -/
theorem append_closing (h : CancelsTo ms (left ++ [o])) (p : Position) :
    CancelsTo (ms ++ [.closing o.kind p]) left := by
  have happend := h.lift (· ++ [.closing o.kind p]) fun _ _ hc => hc.append [.closing o.kind p]
  refine happend.tail ?_
  have hpair := Cancels.pair (left.map .opening) [] o p
  simpa using hpair

/-- **What striking out leaves is what matching leaves.** -/
theorem unclosed_eq (h : CancelsTo ms left) : unclosed ms = left := by
  rw [unclosed, matching_eq_of_cancels h, matching_map_opening]

/-- Openers and closers of one sort, struck out in pairs, leave the openers that outnumber the
closers. -/
theorem countP_eq {opens closes : Marker → Bool} (h : CancelsTo ms left)
    (hopens : ∀ kind p, opens (.closing kind p) = false)
    (hcloses : ∀ o, closes (.opening o) = false)
    (hpair : ∀ o p, opens (.opening o) = closes (.closing o.kind p)) :
    ms.countP opens = ms.countP closes + left.countP fun o => opens (.opening o) := by
  induction h using Relation.ReflTransGen.head_induction_on with
  | refl =>
    rw [List.countP_map, List.countP_map]
    simp [Function.comp_def, hcloses]
  | head hc _ ih =>
    obtain ⟨before, after, o, p⟩ := hc
    simp only [List.countP_append, List.countP_cons, hopens, hcloses, hpair o p] at ih ⊢
    omega

/-- As many openers outnumber the closers as are left. -/
theorem countP_isOpening (h : CancelsTo ms left) :
    ms.countP (·.isOpening) = ms.countP (·.isClosing) + left.length := by
  have hcount : ms.countP (·.isOpening) =
      ms.countP (·.isClosing) + left.countP fun _ => true :=
    h.countP_eq (fun _ _ => rfl) (fun _ => rfl) (fun _ _ => rfl)
  rwa [List.countP_true] at hcount

end CancelsTo

/-! ## A run against its markers

The run holds what is left of the markers so far; the induction is on the text, with those markers
carried along. -/

/-- What the outcome of a run says of the markers it met after `seen`. -/
def Outcome.Tells (seen ms : List Marker) : Outcome → Prop
  | ended s => firstSurplus? seen ms = none ∧ CancelsTo (seen ++ ms) s.stack.entries
  | halted closing => firstSurplus? seen ms = some closing

theorem Outcome.Tells.cons {seen ms : List Marker} {m : Marker} {outcome : Outcome}
    (h : outcome.Tells (seen ++ [m]) ms) (hm : ¬ (m.isClosingBrace ∧ surplus (seen ++ [m]))) :
    outcome.Tells seen (m :: ms) := by
  cases outcome with
  | ended s => simpa [Outcome.Tells, firstSurplus?, hm] using h
  | halted closing => simpa [Outcome.Tells, firstSurplus?, hm] using h

/-- One closing brace more is too many exactly when no brace is held. -/
theorem CancelsTo.surplus_closing {seen : List Marker} {left : List Opener}
    (h : CancelsTo seen left) (p : Position) :
    surplus (seen ++ [.closing .brace p]) ↔ left.countP (·.kind = .brace) = 0 := by
  have hcount : seen.countP (·.isOpeningBrace) =
      seen.countP (·.isClosingBrace) + left.countP (·.kind = .brace) :=
    h.countP_eq (fun _ _ => rfl) (fun _ => rfl) (fun _ _ => rfl)
  have hopening : [Marker.closing .brace p].countP (·.isOpeningBrace) = 0 := rfl
  have hclosing : [Marker.closing .brace p].countP (·.isClosingBrace) = 1 := rfl
  rw [surplus, decide_eq_true_iff, List.countP_append, List.countP_append, hopening, hclosing]
  omega

/-- **What a run does with its openers is what matching does with its markers.** -/
theorem State.outcome_tells {s : State} (hs : s.Sound) {seen : List Marker}
    (hseen : CancelsTo seen s.stack.entries) (cs : List Char) :
    (s.outcome cs).Tells seen (s.lexer.markers cs) := by
  induction cs generalizing s seen with
  | nil => exact ⟨rfl, by rwa [Lexer.markers, List.append_nil]⟩
  | cons c rest ih =>
    have turn := hs.turn c rest.head?
    have hnext : ∀ {t event}, s.step c rest.head? = .next t event → t.Sound :=
      fun h => Turn.sound (h ▸ turn) hs
    rw [Lexer.markers]
    generalize hstep : s.step c rest.head? = step at turn
    generalize s.lexer.step c rest.head? = lexed at turn
    cases turn with
    | silent =>
      rw [outcome_of_next hstep]
      exact ih (hnext hstep) hseen
    | @openBrace y o =>
      rw [outcome_of_next hstep]
      refine Outcome.Tells.cons (ih (hnext hstep) ?_) (by simp [Marker.isClosingBrace])
      rw [OpenStack.entries_push]
      exact hseen.append_opening o
    | @closeBrace y top below _ _ _ stack brace =>
      rw [outcome_of_next hstep]
      rw [stack, OpenStack.entries_push] at hseen
      refine Outcome.Tells.cons (ih (hnext hstep) ?_) ?_
      · exact brace ▸ hseen.append_closing y.here
      · rw [hseen.surplus_closing]
        simp [brace]
    | @halt y _ _ _ stack =>
      have hsurplus : surplus (seen ++ [.closing .brace y.here]) :=
        (hseen.surplus_closing _).2 (by simp [stack, OpenStack.entries, OpenStack.empty])
      rw [outcome_of_halt hstep]
      simp [Outcome.Tells, firstSurplus?, Marker.isClosingBrace, Marker.position, hsurplus]
    | @openInterpolation y o =>
      rw [outcome_of_next hstep]
      refine Outcome.Tells.cons (ih (hnext hstep) ?_) (by simp [Marker.isClosingBrace])
      rw [OpenStack.entries_push]
      exact hseen.append_opening o
    | @closeInterpolation y top below _ _ _ _ stack interpolation =>
      rw [outcome_of_next hstep]
      rw [stack, OpenStack.entries_push] at hseen
      refine Outcome.Tells.cons (ih (hnext hstep) ?_) (by simp [Marker.isClosingBrace])
      exact interpolation ▸ hseen.append_closing y.here

/-- The verdict of a run is the judgement on its markers. -/
theorem Outcome.Tells.verdict_eq {outcome : Outcome} {ms : List Marker}
    (h : outcome.Tells [] ms) : outcome.verdict = judge ms := by
  cases outcome with
  | halted closing =>
    have hfirst : firstSurplus? [] ms = some closing := h
    simp only [judge, hfirst, Outcome.verdict]
  | ended s =>
    obtain ⟨hnone, hleft⟩ := h
    rw [List.nil_append] at hleft
    have hcount := hleft.countP_isOpening
    rw [OpenStack.length_entries] at hcount
    simp only [judge, hnone, Outcome.verdict, hleft.unclosed_eq]
    by_cases hsize : s.stack.size = 0
    · rw [if_pos hsize, if_pos (by omega)]
    · rw [if_neg hsize, if_neg (by omega)]

/-- **A scan is lexing and then matching.**  The verdict on a source is the judgement on the markers
of the whole source.  Unless a closing brace is unexpected, the openers in it are what striking out
neighbours of one kind leaves of the markers, and it counts the openings less the closings. -/
theorem scan_lexes_then_matches (src : Bytes) :
    scan src = judge (markers src) ∧
      ((scan src).kind = .unexpectedClosing ∨
        CancelsTo (markers src) (scan src).opened ∧
          (markers src).countP (·.isOpening) =
            (markers src).countP (·.isClosing) + (scan src).count) := by
  have htells : (State.start.outcome (Utf8.decode src)).Tells [] (markers src) :=
    State.outcome_tells State.sound_start .refl _
  rw [scan_eq_verdict]
  refine ⟨htells.verdict_eq, ?_⟩
  cases houtcome : State.start.outcome (Utf8.decode src) with
  | halted closing => exact .inl rfl
  | ended s =>
    rw [houtcome] at htells
    obtain ⟨-, hleft⟩ := htells
    rw [Verdict.count, Outcome.opened_verdict]
    exact .inr ⟨hleft, hleft.countP_isOpening⟩

end BraceBalance
