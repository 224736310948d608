import BraceBalance.Scan.Run
import Mathlib.Logic.Relation

/-!
# Proofs/Scan/Moves — a run, character by character

A run is a walk of a state along a text.  `Moves` relates a state and the text before it to a later
state and the text still before that one; `State.run` is such a walk to the end of the text, or to
the character at which no step leads on (`State.outcome_moves`).
-/

namespace BraceBalance

/-- One character is read: a state with the text before it, and the same afterwards. -/
inductive Move : State × List Char → State × List Char → Prop
  | read {s t : State} {c : Char} {rest : List Char} {event : Option Event}
      (h : s.step c rest.head? = .next t event) : Move (s, c :: rest) (t, rest)

/-- Some characters are read, or none. -/
abbrev Moves : State × List Char → State × List Char → Prop := Relation.ReflTransGen Move

/-- A run goes on behind a character, with what it tells in front of the trace. -/
theorem State.run_of_next {s t : State} {c : Char} {rest : List Char} {event : Option Event}
    (h : s.step c rest.head? = .next t event) (trace : List Event) :
    s.run trace (c :: rest) = t.run (event.toList ++ trace) rest := by
  rw [State.run, h]
  cases event with
  | none => rfl
  | some event => rfl

/-- A run halts at a character that its step halts at. -/
theorem State.run_of_halt {s : State} {c : Char} {rest : List Char} {closing : Position}
    (h : s.step c rest.head? = .halt closing) (trace : List Event) :
    s.run trace (c :: rest) = (.halted closing, .unexpectedClosing closing :: trace) := by
  rw [State.run, h]

/-- The trace does not influence a run, and what is told later comes in front of it. -/
theorem State.run_eq_append (s : State) (trace : List Event) (cs : List Char) :
    s.run trace cs = ((s.run [] cs).1, (s.run [] cs).2 ++ trace) := by
  induction cs generalizing s trace with
  | nil => rfl
  | cons c rest ih =>
    cases hstep : s.step c rest.head? with
    | halt closing => rw [run_of_halt hstep, run_of_halt hstep, List.singleton_append]
    | next t event =>
      rw [run_of_next hstep, run_of_next hstep, ih t (event.toList ++ trace),
        ih t (event.toList ++ []), List.append_nil, List.append_assoc]

/-- How a run over a text ends, its trace left out. -/
def State.outcome (s : State) (cs : List Char) : Outcome := (s.run [] cs).1

/-- A run comes to its outcome, with or without a trace. -/
theorem State.run_fst (s : State) (trace : List Event) (cs : List Char) :
    (s.run trace cs).1 = s.outcome cs := by
  rw [s.run_eq_append trace cs]
  rfl

theorem scan_eq_verdict (src : Bytes) :
    scan src = (State.start.outcome (Utf8.decode src)).verdict := rfl

theorem State.outcome_of_next {s t : State} {c : Char} {rest : List Char} {event : Option Event}
    (h : s.step c rest.head? = .next t event) : s.outcome (c :: rest) = t.outcome rest := by
  rw [State.outcome, run_of_next h, run_fst]

theorem State.outcome_of_halt {s : State} {c : Char} {rest : List Char} {closing : Position}
    (h : s.step c rest.head? = .halt closing) : s.outcome (c :: rest) = .halted closing := by
  rw [State.outcome, run_of_halt h]

/-- The state after some characters ends as the state before them. -/
theorem Moves.outcome_eq {before after : State × List Char} (h : Moves before after) :
    before.1.outcome before.2 = after.1.outcome after.2 := by
  induction h with
  | refl => rfl
  | tail _ move ih =>
    cases move with
    | read h => exact ih.trans (State.outcome_of_next h)

/-- **A run walks to the end of the text, or to a character where the walk halts.** -/
theorem State.outcome_moves (s : State) (cs : List Char) :
    (∃ t, s.outcome cs = .ended t ∧ Moves (s, cs) (t, [])) ∨
      ∃ t c rest closing, s.outcome cs = .halted closing ∧ Moves (s, cs) (t, c :: rest) ∧
        t.step c rest.head? = .halt closing := by
  induction cs generalizing s with
  | nil => exact .inl ⟨s, rfl, .refl⟩
  | cons c rest ih =>
    cases hstep : s.step c rest.head? with
    | halt closing => exact .inr ⟨s, c, rest, closing, outcome_of_halt hstep, .refl, hstep⟩
    | next t event =>
      rw [outcome_of_next hstep]
      rcases ih t with ⟨u, hu, hmoves⟩ | ⟨u, d, more, closing, hu, hmoves, hhalt⟩
      · exact .inl ⟨u, hu, .head (.read hstep) hmoves⟩
      · exact .inr ⟨u, d, more, closing, hu, .head (.read hstep) hmoves, hhalt⟩

/-- The openers a run ends with are the ones its verdict shows. -/
theorem Outcome.opened_verdict (s : State) : (ended s).verdict.opened = s.stack.entries := by
  by_cases hsize : s.stack.size = 0
  · have hnil : s.stack.entries = [] :=
      List.length_eq_zero_iff.1 (s.stack.length_entries.trans hsize)
    rw [Outcome.verdict, if_pos hsize, hnil]
    rfl
  · rw [Outcome.verdict, if_neg hsize]
    rfl

/-- A run that reaches the end meets no unexpected closing brace. -/
theorem Outcome.kind_verdict_ended (s : State) :
    (ended s).verdict.kind ≠ .unexpectedClosing := by
  rw [Outcome.verdict]
  split
  · nofun
  · nofun

end BraceBalance
