import BraceBalance.Checker
import BraceBalance.Proofs.Text.Lines

/-!
# Proofs/Checker/LineBreaks — how lines end does not count

    lines, each with its end ──written──▸ text ──Source.ofContent──▸ lines, text with LF

The same lines may be written with LF, CRLF or CR behind each of them, in any mixture.  The source
read from such a text has these lines, and its text is the one with LF throughout
(`ofContent_written`), so checking cannot tell the mixtures apart.  The one mixture to keep out is a
CR at the end of a line with an LF behind it, which is a CRLF.
-/

namespace BraceBalance

namespace Lines

/-- What ends a line. -/
inductive Ending where
  | lf
  | crlf
  | cr
  deriving DecidableEq

/-- The bytes of an end. -/
def Ending.bytes : Ending → Bytes
  | lf => [Lines.lf]
  | crlf => [Lines.cr, Lines.lf]
  | cr => [Lines.cr]

/-- The text of some lines with their ends, and of what follows the last end. -/
def written (last : Bytes) : List (Bytes × Ending) → Bytes
  | [] => last
  | (line, ending) :: more => line ++ (ending.bytes ++ written last more)

/-- The lines so written; what follows the last end is one unless it is empty. -/
def linesOf (last : Bytes) (ended : List (Bytes × Ending)) : List Bytes :=
  ended.map Prod.fst ++ if last = [] then [] else [last]

/-- The same lines, each with an LF behind it. -/
def withLf (ended : List (Bytes × Ending)) : List (Bytes × Ending) :=
  ended.map fun line => (line.1, .lf)

/-- No byte of the lines ends a line. -/
def Unbroken (last : Bytes) (ended : List (Bytes × Ending)) : Prop :=
  ∀ line ∈ last :: ended.map Prod.fst, cr ∉ line ∧ lf ∉ line

/-- No CR at the end of a line has an LF right behind it. -/
def Apart (last : Bytes) : List (Bytes × Ending) → Prop
  | [] => True
  | (_, ending) :: more =>
    (ending = .cr → (written last more).head? ≠ some lf) ∧ Apart last more

theorem Unbroken.of_cons {last : Bytes} {line : Bytes × Ending} {more : List (Bytes × Ending)}
    (h : Unbroken last (line :: more)) : (cr ∉ line.1 ∧ lf ∉ line.1) ∧ Unbroken last more := by
  obtain ⟨hlast, hlines⟩ := List.forall_mem_cons.1 h
  obtain ⟨hline, hmore⟩ := List.forall_mem_cons.1 hlines
  exact ⟨hline, List.forall_mem_cons.2 ⟨hlast, hmore⟩⟩

/-- An end is rewritten as LF, if it ends where it seems to. -/
theorem normalize_ending {ending : Ending} {rest : Bytes}
    (h : ending = .cr → rest.head? ≠ some lf) :
    normalize (ending.bytes ++ rest) = lf :: normalize rest := by
  cases ending with
  | lf => exact normalize_cons nofun
  | crlf => exact normalize_crlf rest
  | cr => exact normalize_cons fun _ => h rfl

/-- **Rewriting the breaks of written lines gives the same lines with LF.** -/
theorem normalize_written {last : Bytes} {ended : List (Bytes × Ending)} (hunbroken : Unbroken last ended)
    (hapart : Apart last ended) : normalize (written last ended) = written last (withLf ended) := by
  induction ended with
  | nil => exact normalize_of_not_mem (hunbroken last List.mem_cons_self).1
  | cons line more ih =>
    obtain ⟨hline, hmore⟩ := hunbroken.of_cons
    obtain ⟨hend, hapart⟩ := hapart
    rw [written, normalize_append hline.1, normalize_ending hend, ih hmore hapart]
    rfl

/-- **Lines written with LF are split as they were written.** -/
theorem split_written {last : Bytes} {ended : List (Bytes × Ending)} (hunbroken : Unbroken last ended) :
    split (written last (withLf ended)) = linesOf last ended := by
  induction ended with
  | nil =>
    obtain ⟨hcr, hlf⟩ := hunbroken last List.mem_cons_self
    by_cases hlast : last = []
    · simp [withLf, written, linesOf, hlast, split, splitOnto]
    · simp [withLf, written, linesOf, hlast, split_of_not_mem hcr hlf hlast]
  | cons line more ih =>
    obtain ⟨hline, hmore⟩ := hunbroken.of_cons
    have hfirst : split (line.1 ++ lf :: written last (withLf more)) =
        line.1 :: split (written last (withLf more)) := split_append_lf hline.1 hline.2 _
    rw [ih hmore] at hfirst
    exact hfirst

/-- **The source of written lines has these lines, and LF behind each.** -/
theorem ofContent_written {last : Bytes} {ended : List (Bytes × Ending)}
    (hunbroken : Unbroken last ended) (hapart : Apart last ended) :
    Source.ofContent (written last ended) = ⟨written last (withLf ended), linesOf last ended⟩ := by
  rw [Source.ofContent, normalize_written hunbroken hapart, split_written hunbroken]

/-- **How lines end does not count.**  Lines written with any ends have these lines and the text with
LF for a source, and every checker gives for them what it gives for that text.  Whatever the text,
splitting finds the lines that it finds once the breaks are rewritten; rewriting them again changes
nothing; and it is rewriting each CRLF and then each CR that is left, or nothing if there is no
CR. -/
theorem line_endings_do_not_count :
    (∀ last ended, Unbroken last ended → Apart last ended →
      (Source.ofContent (written last ended)).lines = linesOf last ended ∧
        (Source.ofContent (written last ended)).raw = written last (withLf ended) ∧
        ∀ c : Checker,
          c.runSource (written last ended) = c.runSource (written last (withLf ended))) ∧
      ∀ s, split s = split (normalize s) ∧ normalize (normalize s) = normalize s ∧
        normalize s =
          if cr ∈ s then (dropCrBeforeLf s).map fun b => if b = cr then lf else b else s := by
  refine ⟨fun last ended hunbroken hapart => ?_, fun s => ?_⟩
  · have hsource := ofContent_written hunbroken hapart
    have hsame : Source.ofContent (written last (withLf ended)) =
        Source.ofContent (written last ended) := by
      rw [← normalize_written hunbroken hapart, Source.ofContent_normalize]
    refine ⟨by rw [hsource], by rw [hsource], fun c => ?_⟩
    rw [Checker.runSource, Checker.runSource, hsame]
  · refine ⟨(split_normalize s).symm, normalize_normalize s, ?_⟩
    by_cases hcr : cr ∈ s
    · rw [if_pos hcr, normalize_eq_passes]
    · rw [if_neg hcr, normalize_of_not_mem hcr]

/-- A brace, an empty line and a brace, with a CRLF, a CR and no end behind them. -/
theorem line_endings_do_not_count_mixed :
    Unbroken [0x7d] [([0x7b], .crlf), ([], .cr)] ∧ Apart [0x7d] [([0x7b], .crlf), ([], .cr)] ∧
      (Source.ofContent [0x7b, 0x0d, 0x0a, 0x0d, 0x7d]).lines = [[0x7b], [], [0x7d]] ∧
      (Source.ofContent [0x7b, 0x0d, 0x0a, 0x0d, 0x7d]).raw = [0x7b, 0x0a, 0x0a, 0x7d] := by
  have hunbroken : Unbroken [0x7d] [([0x7b], .crlf), ([], .cr)] := by
    unfold Unbroken
    decide
  have hapart : Apart [0x7d] [([0x7b], .crlf), ([], .cr)] := ⟨nofun, fun _ => by decide, trivial⟩
  obtain ⟨hlines, hraw, -⟩ := line_endings_do_not_count.1 _ _ hunbroken hapart
  exact ⟨hunbroken, hapart, hlines, hraw⟩

end Lines

end BraceBalance
