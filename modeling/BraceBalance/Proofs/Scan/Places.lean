import BraceBalance.Proofs.Scan.Matching

/-!
# Proofs/Scan/Places — markers at other places

Counting and matching look at what a marker is and not at where it stands.  So markers that are
moved are judged as before, and the places in the verdict move with them (`judge_map_moved`).
-/

namespace BraceBalance

/-- An opener with its place moved. -/
def Opener.moved (f : Position → Position) (o : Opener) : Opener :=
  { o with position := f o.position }

/-- A marker with its place moved. -/
def Marker.moved (f : Position → Position) : Marker → Marker
  | opening o => opening (o.moved f)
  | closing kind p => closing kind (f p)

/-- A verdict with its places moved: those of its openers, and that of a closing brace if one is
unexpected. -/
def Verdict.moved (f : Position → Position) (v : Verdict) : Verdict :=
  { v with
    opened := v.opened.map (·.moved f)
    closing := if v.kind = .unexpectedClosing then f v.closing else v.closing }

namespace Marker

variable (f : Position → Position)

@[simp] theorem moved_opening (o : Opener) : (opening o).moved f = .opening (o.moved f) := rfl

@[simp] theorem moved_closing (kind : Kind) (p : Position) :
    (closing kind p).moved f = .closing kind (f p) := rfl

/-- A marker that is moved stands where its place is moved to. -/
theorem position_moved (m : Marker) : (m.moved f).position = f m.position := by cases m <;> rfl

/-- A marker that is moved stays an opener, or none. -/
theorem isOpening_moved (m : Marker) : (m.moved f).isOpening = m.isOpening := by cases m <;> rfl

/-- Likewise it stays a closer, or none. -/
theorem isClosing_moved (m : Marker) : (m.moved f).isClosing = m.isClosing := by cases m <;> rfl

theorem isOpeningBrace_moved (m : Marker) : (m.moved f).isOpeningBrace = m.isOpeningBrace := by
  cases m <;> rfl

theorem isClosingBrace_moved (m : Marker) : (m.moved f).isClosingBrace = m.isClosingBrace := by
  cases m <;> rfl

end Marker

variable (f : Position → Position)

/-- Markers are counted as before by any sort that does not hang on places. -/
theorem countP_map_moved {sort : Marker → Bool} (hsort : ∀ m : Marker, sort (m.moved f) = sort m)
    (ms : List Marker) : (ms.map (·.moved f)).countP sort = ms.countP sort := by
  rw [List.countP_map]
  exact List.countP_congr fun m _ => by rw [Function.comp_apply, hsort]

/-- Whether the closing braces outnumber the opening ones does not hang on places. -/
theorem surplus_map_moved (ms : List Marker) : surplus (ms.map (·.moved f)) = surplus ms := by
  rw [surplus, surplus, countP_map_moved f (Marker.isOpeningBrace_moved f),
    countP_map_moved f (Marker.isClosingBrace_moved f)]

/-- The first closing brace that is too many stays the first. -/
theorem firstSurplus?_map_moved (seen ms : List Marker) :
    firstSurplus? (seen.map (·.moved f)) (ms.map (·.moved f)) = (firstSurplus? seen ms).map f := by
  induction ms generalizing seen with
  | nil => rfl
  | cons m ms ih =>
    have hseen : seen.map (·.moved f) ++ [m.moved f] = (seen ++ [m]).map (·.moved f) := by simp
    rw [List.map_cons, firstSurplus?, firstSurplus?, m.isClosingBrace_moved f, hseen,
      surplus_map_moved, m.position_moved f]
    split_ifs
    · rfl
    · exact ih (seen ++ [m])

/-- Matching leaves the same openers, moved. -/
theorem matching_map_moved (ms : List Marker) :
    matching (ms.map (·.moved f)) = ((matching ms).1.map (·.moved f), (matching ms).2) := by
  induction ms with
  | nil => rfl
  | cons m ms ih =>
    cases m with
    | closing kind p => simp only [List.map_cons, Marker.moved_closing, matching, ih]
    | opening o =>
      simp only [List.map_cons, Marker.moved_opening, matching, ih]
      obtain ⟨left, _ | closers⟩ := matching ms
      · rfl
      · rfl

/-- **Markers that are moved are judged as before.** -/
theorem judge_map_moved (ms : List Marker) : judge (ms.map (·.moved f)) = (judge ms).moved f := by
  have hfirst := firstSurplus?_map_moved f [] ms
  rw [List.map_nil] at hfirst
  rw [judge, judge, hfirst, countP_map_moved f (Marker.isOpening_moved f),
    countP_map_moved f (Marker.isClosing_moved f), unclosed, matching_map_moved]
  cases firstSurplus? [] ms with
  | some closing => rfl
  | none =>
    dsimp only [Option.map_none]
    split_ifs
    · rfl
    · rfl

end BraceBalance
