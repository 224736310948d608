import BraceBalance.Text.Lines
import Mathlib.Tactic.SplitIfs

/-!
# Proofs/Text/Lines — where lines begin and end

Once its line breaks are rewritten, a text holds no CR (`cr_not_mem_normalize`), and its lines are
what stands between the LFs: `split_append_lf` cuts off the first line, `split_of_not_mem` is the
last one.  Splitting finds the same lines before the breaks are rewritten (`split_normalize`), and
rewriting in one pass comes to what two passes come to (`normalize_eq_passes`).
-/

namespace BraceBalance

namespace Lines

/-! ## Rewriting

A CR is rewritten with the byte behind it in sight, so each fact is told apart by whether the two
are a CRLF. -/

theorem cr_not_mem_normalizeOnto (acc s : Bytes) (h : cr ∉ acc) : cr ∉ normalizeOnto acc s := by
  fun_induction normalizeOnto acc s with
  | case1 acc => simpa using h
  | case2 acc rest ih => exact ih (by simpa [cr, lf] using h)
  | case3 acc b rest _ ih =>
    refine ih fun hmem => ?_
    rcases List.mem_cons.1 hmem with hb | hmem
    · split_ifs at hb with hcr
      · exact absurd hb (by decide)
      · exact hcr hb.symm
    · exact h hmem

/-- **No CR is left.** -/
theorem cr_not_mem_normalize (s : Bytes) : cr ∉ normalize s :=
  cr_not_mem_normalizeOnto [] s List.not_mem_nil

/-- What has been rewritten already stays in front. -/
theorem normalizeOnto_append (acc earlier s : Bytes) :
    normalizeOnto (acc ++ earlier) s = earlier.reverse ++ normalizeOnto acc s := by
  fun_induction normalizeOnto acc s with
  | case1 acc => rw [normalizeOnto, List.reverse_append]
  | case2 acc rest ih => rw [normalizeOnto, ← ih, List.cons_append]
  | case3 acc b rest hcrlf ih =>
    rw [normalizeOnto, ← ih, List.cons_append]
    exact hcrlf

@[simp] theorem normalize_nil : normalize [] = [] := rfl

/-- A CRLF is rewritten as one LF. -/
theorem normalize_crlf (rest : Bytes) : normalize (cr :: lf :: rest) = lf :: normalize rest :=
  normalizeOnto_append [] [lf] rest

/-- Any other byte is rewritten by itself. -/
theorem normalize_cons {b : UInt8} {rest : Bytes} (h : b = cr → rest.head? ≠ some lf) :
    normalize (b :: rest) = (if b = cr then lf else b) :: normalize rest := by
  rw [normalize, normalizeOnto]
  · exact normalizeOnto_append [] [_] rest
  · rintro rest' hb rfl
    exact h hb rfl

theorem not_crlf {b : UInt8} {rest : Bytes} (h : ∀ rest', b = 0x0d → rest = 0x0a :: rest' → False) :
    b = cr → rest.head? ≠ some lf := by
  intro hb hlf
  obtain ⟨rest', rfl⟩ := List.head?_eq_some_iff.1 hlf
  exact h rest' hb rfl

/-- Rewriting goes on behind a piece without CR. -/
theorem normalize_append {a : Bytes} (h : cr ∉ a) (rest : Bytes) :
    normalize (a ++ rest) = a ++ normalize rest := by
  induction a with
  | nil => rfl
  | cons b a ih =>
    rw [List.mem_cons, not_or] at h
    have hb : b ≠ cr := Ne.symm h.1
    rw [List.cons_append, normalize_cons (absurd · hb), if_neg hb, ih h.2, List.cons_append]

/-- A text without CR stays as it is. -/
theorem normalize_of_not_mem {s : Bytes} (h : cr ∉ s) : normalize s = s := by
  simpa using normalize_append h []

/-- **Rewriting twice is rewriting once.** -/
theorem normalize_normalize (s : Bytes) : normalize (normalize s) = normalize s :=
  normalize_of_not_mem (cr_not_mem_normalize s)

/-- A text with CRLF rewritten as LF, and a lone CR kept. -/
def dropCrBeforeLf : Bytes → Bytes
  | [] => []
  | 0x0d :: 0x0a :: rest => lf :: dropCrBeforeLf rest
  | b :: rest => b :: dropCrBeforeLf rest

/-- **Rewriting in one pass is rewriting each CRLF, and each CR left after that.** -/
theorem normalize_eq_passes (s : Bytes) :
    normalize s = (dropCrBeforeLf s).map fun b => if b = cr then lf else b := by
  fun_induction dropCrBeforeLf s with
  | case1 => rfl
  | case2 rest ih =>
    rw [List.map_cons, ← ih]
    exact normalize_crlf rest
  | case3 b rest hcrlf ih =>
    rw [List.map_cons, ← ih]
    exact normalize_cons (not_crlf hcrlf)

/-! ## Splitting

An LF ends a line whatever stands around it, and a CR only if no LF follows. -/

/-- Lines already complete stay in front. -/
theorem splitOnto_append_done (done earlier : List Bytes) (line s : Bytes) :
    splitOnto (done ++ earlier) line s = earlier.reverse ++ splitOnto done line s := by
  fun_induction splitOnto done line s with
  | case1 done line =>
    rw [splitOnto]
    split_ifs <;> simp
  | case2 done line rest ih => rw [splitOnto, ← ih, List.cons_append]
  | case3 done line b rest hcrlf hb ih =>
    rw [splitOnto, if_pos hb, ← ih, List.cons_append]
    exact hcrlf
  | case4 done line b rest hcrlf hb ih =>
    rw [splitOnto, if_neg hb, ← ih]
    exact hcrlf

theorem splitOnto_cons {b : UInt8} (hb : b ≠ cr) (done : List Bytes) (line rest : Bytes) :
    splitOnto done line (b :: rest) =
      if b = lf then splitOnto (line.reverse :: done) [] rest
      else splitOnto done (b :: line) rest := by
  rw [splitOnto]
  · simp [hb]
  · intro rest' h1 h2
    exact hb h1

/-- Up to the first LF a text is one line. -/
theorem splitOnto_append {a : Bytes} (hcr : cr ∉ a) (hlf : lf ∉ a) (done : List Bytes)
    (line rest : Bytes) :
    splitOnto done line (a ++ rest) = splitOnto done (a.reverse ++ line) rest := by
  induction a generalizing line with
  | nil => rfl
  | cons b a ih =>
    rw [List.mem_cons, not_or] at hcr hlf
    rw [List.cons_append, splitOnto_cons (Ne.symm hcr.1), if_neg (Ne.symm hlf.1),
      ih hcr.2 hlf.2, List.reverse_cons, List.append_assoc, List.singleton_append]

/-- **The first line ends at the first LF.** -/
theorem split_append_lf {a : Bytes} (hcr : cr ∉ a) (hlf : lf ∉ a) (rest : Bytes) :
    split (a ++ lf :: rest) = a :: split rest := by
  rw [split, splitOnto_append hcr hlf, splitOnto_cons (by decide), if_pos rfl, List.append_nil,
    List.reverse_reverse, ← List.nil_append [a], splitOnto_append_done]
  rfl

/-- **What follows the last LF is a line, unless it is empty.** -/
theorem split_of_not_mem {a : Bytes} (hcr : cr ∉ a) (hlf : lf ∉ a) (ha : a ≠ []) :
    split a = [a] := by
  rw [split, ← List.append_nil a, splitOnto_append hcr hlf, splitOnto]
  simp [ha]

/-- A text splits into the same lines once its breaks are rewritten, whatever was read before. -/
theorem splitOnto_normalize (done : List Bytes) (line s : Bytes) :
    splitOnto done line (normalize s) = splitOnto done line s := by
  have hlf : lf ≠ cr := by decide
  fun_induction splitOnto done line s with
  | case1 done line => rfl
  | case2 done line rest ih =>
    have hbreak : normalize (0x0d :: 0x0a :: rest) = lf :: normalize rest := normalize_crlf rest
    rw [hbreak, splitOnto_cons hlf, if_pos rfl, ih]
  | case3 done line b rest hcrlf hb ih =>
    have hbreak : normalize (b :: rest) = lf :: normalize rest := by
      rw [normalize_cons (not_crlf hcrlf)]
      rcases hb with rfl | rfl
      · rfl
      · rfl
    rw [hbreak, splitOnto_cons hlf, if_pos rfl, ih]
  | case4 done line b rest hcrlf hb ih =>
    rw [not_or] at hb
    rw [normalize_cons (not_crlf hcrlf), if_neg hb.1, splitOnto_cons hb.1, if_neg hb.2, ih]

/-- **Rewriting the breaks of a text keeps its lines.** -/
theorem split_normalize (s : Bytes) : split (normalize s) = split s := splitOnto_normalize [] [] s

/-- Induction along the lines of a text. -/
theorem line_induction {motive : Bytes → Prop} (last : ∀ a, lf ∉ a → motive a)
    (line : ∀ a rest, lf ∉ a → motive rest → motive (a ++ lf :: rest)) (s : Bytes) : motive s := by
  by_cases h : lf ∈ s
  · obtain ⟨a, rest, heq, ha⟩ := List.eq_append_cons_of_mem h
    have hshorter : rest.length < s.length := by
      rw [heq, List.length_append, List.length_cons]
      omega
    rw [heq]
    exact line a rest ha (line_induction last line rest)
  · exact last s h
termination_by s.length

end Lines

/-- A text and the same text with its breaks rewritten are one source. -/
theorem Source.ofContent_normalize (s : Bytes) :
    Source.ofContent (Lines.normalize s) = Source.ofContent s := by
  rw [Source.ofContent, Lines.normalize_normalize]
  rfl

end BraceBalance
