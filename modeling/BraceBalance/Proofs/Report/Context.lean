import BraceBalance.Proofs.Scan.Positions
import BraceBalance.Report.Summary
import Mathlib.Algebra.Group.Nat.Defs
import Mathlib.Algebra.Ring.Int.Defs
import Mathlib.Data.List.Nodup

/-!
# Proofs/Report/Context — the source lines around the last unmatched opener

The window of context lines is reckoned in machine words, from zero and half open; a reader reckons
in whole numbers, from one and with both ends.  The two agree as long as the line's number and the
lines behind it add up to a machine word (`Window.contains_around`); past that the sum wraps around
and the window is empty (`Window.not_contains_around`).  The context is written row by row
(`Summary.context_eq_rows`), and the rows of a window that does not wrap are `Rows.Exact`.
-/

namespace BraceBalance

/-! ## The window in whole numbers

Lines and extents are words, and of the sums in a window only that of a line and the extent behind
it can leave them. -/

namespace Window

variable {line total : Int64} {o : Options}

/-- The greater of two words is the greater number. -/
theorem toInt_max (a b : Int64) : (max a b).toInt = max a.toInt b.toInt := by
  have hmax : max a b = if a ≤ b then b else a := rfl
  rw [hmax]
  split_ifs with h
  · exact (Int.max_eq_right (Int64.le_iff_toInt_le.1 h)).symm
  · exact (Int.max_eq_left (Int.le_of_not_le (mt Int64.le_iff_toInt_le.2 h))).symm

/-- The lesser of two words is the lesser number. -/
theorem toInt_min (a b : Int64) : (min a b).toInt = min a.toInt b.toInt := by
  have hmin : min a b = if a ≤ b then a else b := rfl
  rw [hmin]
  split_ifs with h
  · exact (Int.min_eq_left (Int64.le_iff_toInt_le.1 h)).symm
  · exact (Int.min_eq_right (Int.le_of_not_le (mt Int64.le_iff_toInt_le.2 h))).symm

/-- The first line of a window never wraps around. -/
theorem toInt_start_around (hline : 1 ≤ line.toInt) (hbefore : 0 ≤ o.before.toInt) :
    (around line total o).start.toInt = max 0 (line.toInt - 1 - o.before.toInt) := by
  have hword := line.toInt_lt
  have hextent := o.before.toInt_lt
  have hfirst : (line - 1).toInt = line.toInt - 1 := by
    rw [Int64.toInt_sub]
    exact Int.bmod_eq_of_le (by simp; omega) (by simp; omega)
  rw [around, toInt_max, Int64.toInt_sub, hfirst, Int.bmod_eq_of_le (by omega) (by omega)]
  rfl

/-- The end of a window wraps around if its last line is more than a word counts. -/
theorem toInt_stop_around :
    (around line total o).stop.toInt =
      min total.toInt ((line.toInt + o.after.toInt).bmod (2 ^ 64)) := by
  rw [around, toInt_min, Int64.toInt_add]

/-- **The window holds the lines it should, in whole numbers**, unless it wraps around. -/
theorem contains_around (hline : 1 ≤ line.toInt) (hbefore : 0 ≤ o.before.toInt)
    (hafter : 0 ≤ o.after.toInt) (hword : line.toInt + o.after.toInt < 2 ^ 63) (i : Nat) :
    (around line total o).contains i = true ↔
      max 1 (line.toInt - o.before.toInt) ≤ (i + 1 : Nat) ∧
        ((i + 1 : Nat) : Int) ≤ min total.toInt (line.toInt + o.after.toInt) := by
  have hstop : (line.toInt + o.after.toInt).bmod (2 ^ 64) = line.toInt + o.after.toInt :=
    Int.bmod_eq_of_le (by omega) (by omega)
  rw [contains, Bool.and_eq_true, decide_eq_true_iff, decide_eq_true_iff,
    toInt_start_around hline hbefore, toInt_stop_around, hstop]
  omega

/-- A window that wraps around is empty. -/
theorem not_contains_around (hline : 1 ≤ line.toInt) (hwrap : 2 ^ 63 ≤ line.toInt + o.after.toInt)
    (i : Nat) : (around line total o).contains i = false := by
  have hword := line.toInt_lt
  have hextent := o.after.toInt_lt
  have hstop : (line.toInt + o.after.toInt).bmod (2 ^ 64) < 0 := by
    rw [← Int.sub_bmod_right, Int.bmod_eq_of_le] <;> omega
  rw [contains, toInt_stop_around, Bool.and_eq_false_iff]
  exact .inr (decide_eq_false (by omega))

end Window

/-! ## Rows -/

namespace Summary

/-- A source line in the context, with its number. -/
structure Row where
  marked : Bool
  number : Nat
  text : Bytes

/-- A row as it is written. -/
def Row.written (r : Row) : Bytes :=
  (if r.marked then ">" else " ") ++ " " ++ Bytes.padLeft 4 (Bytes.ofNat r.number) ++ ": " ++
    r.text ++ "\n"

/-- The rows of the context of a line. -/
def rows (line : Int) (lines : List Bytes) (o : Options) : List Row :=
  let window := Window.around (Int64.ofInt line) (Int64.ofNat lines.length) o
  (lines.zipIdx.filter (window.contains ·.2)).map fun (text, i) =>
    ⟨((i + 1 : Nat) : Int) = line, i + 1, text⟩

theorem contextLine_eq_written (line : Int) (number : Nat) (text : Bytes) :
    contextLine line number text = Row.written ⟨(number : Int) = line, number, text⟩ := by
  simp only [contextLine, Row.written, decide_eq_true_eq]

theorem context_eq_rows (line : Int) (lines : List Bytes) (o : Options) :
    context line lines o = (rows line lines o).flatMap Row.written := by
  rw [context, rows]
  generalize Window.around _ _ o = window
  induction lines.zipIdx with
  | nil => rfl
  | cons entry entries ih =>
    obtain ⟨text, i⟩ := entry
    rw [List.flatMap_cons, ih]
    by_cases hin : window.contains i = true
    · simp only [hin, if_true, List.filter_cons, List.map_cons, List.flatMap_cons,
        contextLine_eq_written]
    · simp only [hin, Bool.false_eq_true, if_false, List.filter_cons, List.nil_append]

/-- The rows are the source lines in the window, each with its number, and the line of the opener is
marked. -/
theorem mem_rows {line : Int} {lines : List Bytes} {o : Options} {r : Row} :
    r ∈ rows line lines o ↔ 1 ≤ r.number ∧ lines[r.number - 1]? = some r.text ∧
      (r.marked = true ↔ (r.number : Int) = line) ∧
      (Window.around (Int64.ofInt line) (Int64.ofNat lines.length) o).contains (r.number - 1) =
        true := by
  simp only [rows, List.mem_map, List.mem_filter, Prod.exists, List.mem_zipIdx_iff_getElem?]
  constructor
  · rintro ⟨text, i, ⟨hline, hin⟩, rfl⟩
    exact ⟨Nat.le_add_left 1 i, hline, decide_eq_true_iff, hin⟩
  · rintro ⟨hone, hline, hmarked, hin⟩
    obtain ⟨marked, number, text⟩ := r
    obtain ⟨i, rfl⟩ := Nat.exists_eq_add_of_le' hone
    refine ⟨text, i, ⟨hline, hin⟩, ?_⟩
    congr 1
    exact Bool.eq_iff_iff.2 (decide_eq_true_iff.trans hmarked.symm)

/-- The rows stand in the order of their numbers. -/
theorem rows_ascend (line : Int) (lines : List Bytes) (o : Options) :
    ((rows line lines o).map Row.number).Pairwise (· < ·) := by
  have hindices : (lines.zipIdx.map Prod.snd).Pairwise (· < ·) := by
    rw [List.zipIdx_map_snd]
    exact List.pairwise_lt_range'
  rw [rows, List.map_map, List.pairwise_map]
  exact ((List.pairwise_map.1 hindices).filter _).imp fun hlt => Nat.succ_lt_succ hlt

/-- These rows are the lines from one number to another, each once and in order, and one of them
alone is marked. -/
structure Exact (lines : List Bytes) (first last marked : Int) (rows : List Row) : Prop where
  ascend : (rows.map Row.number).Pairwise (· < ·)
  mem_iff : ∀ n : Nat, n ∈ rows.map Row.number ↔ first ≤ n ∧ n ≤ last
  text : ∀ r ∈ rows, lines[r.number - 1]? = some r.text
  marked : (rows.filter (·.marked)).map (fun r => (r.number : Int)) = [marked]

/-- **The rows are those of the window in whole numbers**, unless it wraps around. -/
theorem exact_rows {line : Int} {lines : List Bytes} {o : Options} (ho : o.accepted = true)
    (hone : 1 ≤ line) (hlast : line ≤ lines.length) (hlines : lines.length < 2 ^ 63)
    (hword : line + o.after.toInt < 2 ^ 63) :
    Exact lines (max 1 (line - o.before.toInt)) (min lines.length (line + o.after.toInt)) line
      (rows line lines o) := by
  simp only [Options.accepted, Bool.and_eq_true, decide_eq_true_eq, Int64.lt_iff_toInt_lt,
    Int64.le_iff_toInt_le, Int64.toInt_zero] at ho
  obtain ⟨⟨-, hbefore⟩, hafter⟩ := ho
  have hline : (Int64.ofInt line).toInt = line := Int64.toInt_ofInt_of_le (by omega) (by omega)
  have hin := @Window.contains_around (Int64.ofInt line) (Int64.ofNat lines.length) o
    (hline.symm ▸ hone) hbefore hafter (hline.symm ▸ hword)
  rw [hline, Int64.toInt_ofNat_of_lt hlines] at hin
  have hmem : ∀ n : Nat, n ∈ (rows line lines o).map Row.number ↔
      max 1 (line - o.before.toInt) ≤ n ∧ n ≤ min (lines.length : Int) (line + o.after.toInt) := by
    intro n
    rw [List.mem_map]
    constructor
    · rintro ⟨r, hr, rfl⟩
      obtain ⟨hnumber, -, -, hwindow⟩ := mem_rows.1 hr
      rwa [hin, Nat.sub_add_cancel hnumber] at hwindow
    · intro hn
      have hnumber : 1 ≤ n := by omega
      have hindex : n - 1 < lines.length := by omega
      refine ⟨⟨(n : Int) = line, n, lines[n - 1]⟩, mem_rows.2 ⟨hnumber, ?_, ?_, ?_⟩, rfl⟩
      · exact List.getElem?_eq_getElem hindex
      · exact decide_eq_true_iff
      · rwa [hin, Nat.sub_add_cancel hnumber]
  refine ⟨rows_ascend line lines o, hmem, fun r hr => (mem_rows.1 hr).2.1, ?_⟩
  -- Only the row of the line is marked, and numbers are not repeated.
  have hnodup : (((rows line lines o).filter (·.marked)).map fun r => (r.number : Int)).Nodup := by
    refine List.pairwise_map.2 (((List.pairwise_map.1 (rows_ascend line lines o)).filter _).imp ?_)
    intro r r' hlt
    omega
  refine List.perm_singleton.1 ((List.perm_ext_iff_of_nodup hnodup (List.nodup_singleton _)).2 ?_)
  intro n
  rw [List.mem_singleton, List.mem_map]
  constructor
  · rintro ⟨r, hr, rfl⟩
    obtain ⟨hr, hmarked⟩ := List.mem_filter.1 hr
    exact (mem_rows.1 hr).2.2.1.1 hmarked
  · rintro rfl
    obtain ⟨r, hr, hnumber⟩ := List.mem_map.1 ((hmem n.toNat).2 (by omega))
    have hrow : (r.number : Int) = n := by omega
    exact ⟨r, List.mem_filter.2 ⟨hr, (mem_rows.1 hr).2.2.1.2 hrow⟩, hrow⟩

/-- A window that wraps around shows no line. -/
theorem rows_of_wrap {line : Int} {lines : List Bytes} {o : Options} (hone : 1 ≤ line)
    (hlast : line < 2 ^ 63) (hwrap : 2 ^ 63 ≤ line + o.after.toInt) : rows line lines o = [] := by
  have hline : (Int64.ofInt line).toInt = line := Int64.toInt_ofInt_of_le (by omega) (by omega)
  rw [List.eq_nil_iff_forall_not_mem]
  intro r hr
  have hwindow := (mem_rows.1 hr).2.2.2
  rw [Window.not_contains_around (hline.symm ▸ hone) (hline.symm ▸ hwrap)] at hwindow
  exact Bool.false_ne_true hwindow

end Summary

/-! ## The line of the last opener

A text has fewer lines than a word counts, so the line of an opener can be told in one. -/

/-- The openers that a scan leaves stand in the text. -/
theorem fits_of_mem_opened {src : Bytes} {o : Opener} (h : o ∈ (scan src).opened) :
    o.Fits (Utf8.decode src) := by
  rw [scan_eq_verdict] at h
  rcases State.start.outcome_moves (Utf8.decode src) with
    ⟨t, hended, hmoves⟩ | ⟨t, c, rest, closing, hhalted, -⟩
  · rw [hended, Outcome.opened_verdict] at h
    exact (Faithful.of_moves hmoves).fits o h
  · rw [hhalted] at h
    exact absurd h List.not_mem_nil

/-- Where openers are left, one is the last. -/
theorem exists_last_of_unmatchedOpen {src : Bytes} (h : (scan src).kind = .unmatchedOpen) :
    ∃ last ∈ (scan src).opened, (scan src).last? = some last := by
  have hne : (scan src).opened ≠ [] := by
    rw [scan_eq_verdict] at h ⊢
    generalize State.start.outcome (Utf8.decode src) = outcome at h ⊢
    rcases outcome with s | closing
    · intro hnil
      rw [Outcome.opened_verdict] at hnil
      have hsize : s.stack.size = 0 := by rw [← s.stack.length_entries, hnil]; rfl
      rw [Outcome.verdict, if_pos hsize] at h
      cases h
    · cases h
  exact ⟨_, List.getLast_mem hne, List.getLast?_eq_some_getLast hne⟩

namespace Lines

theorem length_splitOnto_le (done : List Bytes) (line s : Bytes) :
    (splitOnto done line s).length ≤ done.length + line.length + s.length := by
  fun_induction splitOnto done line s with
  | case1 done line =>
    split_ifs with hline
    · simp
    · have hpos : 0 < line.length := List.length_pos_iff.2 (by simpa using hline)
      simp only [List.length_reverse, List.length_cons]
      omega
  | case2 _ _ _ ih | case3 _ _ _ _ _ _ ih | case4 _ _ _ _ _ _ ih =>
    simp only [List.length_cons, List.length_nil] at ih ⊢
    omega

/-- A text has no more lines than bytes. -/
theorem length_split_le (s : Bytes) : (split s).length ≤ s.length := by
  have hle := length_splitOnto_le [] [] s
  rwa [List.length_nil, List.length_nil, Nat.zero_add] at hle

end Lines

/-- **The context is the window around the last opener, in whole numbers, unless it wraps around.**
With options that a checker takes, the report of unmatched openers ends in rows.  If the number of
the last opener's line and the lines to be shown behind it add up to a machine word, these are the
lines of the window and the line of the opener is marked; if not, no line is shown at all. -/
theorem context_exact_unless_wrapped {content : Bytes} (hlength : content.length < 2 ^ 63)
    {o : Options} (ho : o.accepted = true)
    (hkind : (scan (Source.ofContent content).raw).kind = .unmatchedOpen) :
    let source := Source.ofContent content
    let verdict := scan source.raw
    ∃ (last : Opener) (rows : List Summary.Row), verdict.last? = some last ∧
      verdict.summary source.lines o =
        .ok ("UNMATCHED_OPEN_COUNT " ++ Bytes.ofNat verdict.count ++ "\n" ++
          (verdict.tail o.tail.toInt).flatMap Summary.openerLine ++
          "\nContext around last unmatched open:\n" ++ rows.flatMap Summary.Row.written) ∧
      (last.position.line + o.after.toInt < 2 ^ 63 →
        Summary.Exact source.lines (max 1 (last.position.line - o.before.toInt))
          (min source.lines.length (last.position.line + o.after.toInt)) last.position.line rows) ∧
      (2 ^ 63 ≤ last.position.line + o.after.toInt → rows = []) := by
  intro source verdict
  obtain ⟨last, hmem, hlast⟩ := exists_last_of_unmatchedOpen hkind
  have hcr : Lines.cr ∉ source.raw := Lines.cr_not_mem_normalize content
  obtain ⟨hone, hle, -⟩ := (fits_of_mem_opened hmem).charAt?_eq hcr
  have hlines : source.lines.length < 2 ^ 63 := by
    refine Nat.lt_of_le_of_lt ?_ hlength
    have hsplit : source.lines = Lines.split content := Lines.split_normalize content
    rw [hsplit]
    exact Lines.length_split_le content
  have hbound : last.position.line ≤ source.lines.length := hle
  refine ⟨last, Summary.rows last.position.line source.lines o, hlast, ?_, ?_, ?_⟩
  · have hline : (verdict.last?.map (·.position.line)).getD 0 = last.position.line := by
      rw [show verdict.last? = some last from hlast]
      rfl
    rw [Verdict.summary, show verdict.kind = .unmatchedOpen from hkind, Summary.unmatched, hline,
      Summary.context_eq_rows]
  · exact Summary.exact_rows ho hone hbound hlines
  · exact Summary.rows_of_wrap hone (by omega)

/-- A line before the opener's and two lines behind it, of which there is one. -/
theorem context_exact_between : ∃ (last : Opener) (rows : List Summary.Row),
    (scan "a\nb\n\x7b\nc").last? = some last ∧ last.position.line = 3 ∧
      Summary.Exact ["a", "b", "\x7b", "c"] 2 4 3 rows := by
  have hsource : Source.ofContent "a\nb\n\x7b\nc" =
      ⟨"a\nb\n\x7b\nc", ["a", "b", "\x7b", "c"]⟩ := by decide
  have hkind : (scan (Source.ofContent "a\nb\n\x7b\nc").raw).kind = .unmatchedOpen := by
    decide
  obtain ⟨last, rows, hlast, -, hexact, -⟩ :=
    context_exact_unless_wrapped (o := ⟨8, 1, 2⟩) (by decide) (by decide) hkind
  rw [hsource] at hlast hexact
  have hthird : (scan "a\nb\n\x7b\nc").last? = some ⟨⟨3, 1⟩, .brace⟩ := by decide
  obtain rfl := Option.some.inj (hlast.symm.trans hthird)
  exact ⟨_, rows, hlast, rfl, hexact (by decide)⟩

/-- With as many lines to be shown behind the opener as a machine word can count, not even the line
of the opener is shown. -/
theorem context_lost_by_wrapping :
    let o : Options := ⟨8, 3, Int64.maxValue⟩
    let source := Source.ofContent "\x7b"
    let verdict := scan source.raw
    o.accepted = true ∧ verdict = .unmatchedOpen [⟨⟨1, 1⟩, .brace⟩] ∧ source.lines = ["\x7b"] ∧
      verdict.summary source.lines o = .ok (utf8
        "UNMATCHED_OPEN_COUNT 1\n  AT 1 1 \x7b\n\nContext around last unmatched open:\n") := by
  decide +kernel

end BraceBalance
