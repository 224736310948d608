import BraceBalance.Proofs.Report.Context
import BraceBalance.Report.Issue

/-!
# Proofs/Report/Marks — the issues of a scan stand in the lines

An issue spans the characters of the marker that its rule is about (`Rule.marker`): the marker
stands in the line that the issue names, from its first column to its last (`Issue.Marks`).  For an
interpolation the last column is reckoned in a machine word; a source that fits into memory has no
line so long that it could wrap around (`Stands.column_lt`).
-/

namespace BraceBalance

/-- The marker that breaks a rule. -/
def Rule.marker (rule : Bytes) : List Char :=
  if rule = unexpectedClosing then ['\x7d']
  else if rule = unclosedInterpolation then ['$', '\x7b']
  else ['\x7b']

/-- An issue marks a run of characters: they stand in its line, from its first column to its last,
behind the characters `before`. -/
structure Issue.Marks (issue : Issue) (lines : List Bytes) (line : Bytes)
    (before marker : List Char) : Prop where
  start_line : 1 ≤ issue.start.line
  line_eq : lines[issue.start.line.toNat - 1]? = some line
  stop_line : issue.stop.line = issue.start.line
  text : before ++ marker <+: Utf8.decode line
  start_column : issue.start.column = before.length + 1
  stop_column : issue.stop.column = before.length + marker.length

/-! ## Lengths

A column is computed in words, so it is to be shown that the column behind an opener is one too. -/

/-- A text has no more characters than bytes. -/
theorem Utf8.length_decode_le (s : Bytes) : (decode s).length ≤ s.length := by
  induction s using sequence_induction with
  | nil => exact Nat.le_refl 0
  | broken b s hseq ih =>
    rw [decode_cons_of_none hseq]
    exact Nat.succ_le_succ ih
  | spelled b s c more hseq hmore ih =>
    rw [decode_cons_of_some hseq]
    rw [List.length_drop] at ih
    exact Nat.succ_le_succ (Nat.le_trans ih (Nat.sub_le _ _))

/-- A text has no more bytes once its line breaks are single line feeds. -/
theorem Lines.length_normalize_le (s : Bytes) : (normalize s).length ≤ s.length := by
  have honto : ∀ acc : Bytes, (normalizeOnto acc s).length ≤ acc.length + s.length := by
    intro acc
    fun_induction normalizeOnto acc s with
    | case1 acc => exact Nat.le_of_eq List.length_reverse
    | case2 acc rest ih | case3 acc b rest _ ih =>
      simp only [List.length_cons] at ih ⊢
      omega
  exact Nat.le_trans (honto []) (Nat.le_of_eq (Nat.zero_add _))

/-- A text leads to the right by a column for each of its characters at most. -/
theorem snd_foldl_walk_le (cs : List Char) (place : Nat × Nat) :
    (cs.foldl walk place).2 ≤ place.2 + cs.length := by
  induction cs generalizing place with
  | nil => exact Nat.le_refl _
  | cons c cs ih =>
    have hstep : (walk place c).2 ≤ place.2 + 1 := by
      rw [walk]
      split_ifs
      · exact Nat.zero_le _
      · exact Nat.le_refl _
    have htail := ih (walk place c)
    rw [List.foldl_cons, List.length_cons]
    omega

/-- Something that is followed by something has a column less than the length of the text. -/
theorem Stands.column_lt {text : List Char} {p : Position} {c d : Char}
    (h : Stands text p c (some d)) : p.column < text.length := by
  obtain ⟨before, after, rfl, hnext, rfl⟩ := h
  obtain ⟨after, rfl⟩ := List.head?_eq_some_iff.1 hnext.symm
  have hle := snd_foldl_walk_le (before ++ [c]) (1, 0)
  rw [List.foldl_append, List.foldl_cons, List.foldl_nil] at hle
  simp only [Position.ofPlace, List.length_append, List.length_cons, List.length_nil] at hle ⊢
  omega

/-! ## Characters of a line

A position tells a line and a column in it, both counted from one. -/

/-- A character at a position stands in a line that is there, at a column that is there. -/
theorem exists_of_charAt? {lines : List Bytes} {p : Position} {c : Char}
    (h : charAt? lines p = some c) :
    1 ≤ p.line ∧ 1 ≤ p.column ∧ ∃ line, lines[p.line.toNat - 1]? = some line ∧
      (Utf8.decode line)[p.column.toNat - 1]? = some c := by
  rw [charAt?] at h
  split_ifs at h with hp
  exact ⟨hp.1, hp.2, Option.bind_eq_some_iff.1 h⟩

theorem cons_prefix_drop {l m : List Char} {k : Nat} {c : Char} (h : l[k]? = some c)
    (hm : m <+: l.drop (k + 1)) : c :: m <+: l.drop k := by
  obtain ⟨hk, hc⟩ := List.getElem?_eq_some_iff.1 h
  rw [List.drop_eq_getElem_cons hk, hc, List.cons_prefix_cons]
  exact ⟨rfl, hm⟩

namespace Issue

variable {lines : List Bytes} {issue : Issue} {line : Bytes} {marker : List Char}

/-- What stands in a line from a column on is marked by an issue there. -/
theorem marks_of_drop (hline : 1 ≤ issue.start.line)
    (hlines : lines[issue.start.line.toNat - 1]? = some line) (hcolumn : 1 ≤ issue.start.column)
    (hmarker : marker <+: (Utf8.decode line).drop (issue.start.column.toNat - 1))
    (hne : marker ≠ [])
    (hstop : issue.stop = ⟨issue.start.line, issue.start.column + marker.length - 1⟩) :
    issue.Marks lines line ((Utf8.decode line).take (issue.start.column.toNat - 1)) marker := by
  have hlength : issue.start.column.toNat - 1 ≤ (Utf8.decode line).length := by
    have hle := hmarker.length_le
    have hpos := List.length_pos_iff.2 hne
    rw [List.length_drop] at hle
    omega
  have htake := List.length_take_of_le hlength
  obtain ⟨rest, hrest⟩ := hmarker
  refine ⟨hline, hlines, by rw [hstop], ⟨rest, ?_⟩, by rw [htake]; omega, ?_⟩
  · rw [List.append_assoc, hrest, List.take_append_drop]
  · rw [hstop, htake]
    simp only
    omega

/-- An issue whose first and last position hold one character marks it. -/
theorem exists_marks_char {c : Char} (h : charAt? lines issue.start = some c)
    (hstop : issue.stop = issue.start) : ∃ line before, issue.Marks lines line before [c] := by
  obtain ⟨hline, hcolumn, line, hlines, hc⟩ := exists_of_charAt? h
  refine ⟨line, _, marks_of_drop hline hlines hcolumn ?_ (List.cons_ne_nil c []) ?_⟩
  · exact cons_prefix_drop hc List.nil_prefix
  · rw [hstop]
    simp

/-- An issue over two columns marks the characters that stand there. -/
theorem exists_marks_pair {c d : Char} (hc : charAt? lines issue.start = some c)
    (hd : charAt? lines { issue.start with column := issue.start.column + 1 } = some d)
    (hstop : issue.stop = { issue.start with column := issue.start.column + 1 }) :
    ∃ line before, issue.Marks lines line before [c, d] := by
  obtain ⟨hline, hcolumn, line, hlines, hc⟩ := exists_of_charAt? hc
  obtain ⟨-, -, line', hlines', hd⟩ := exists_of_charAt? hd
  obtain rfl := Option.some.inj (hlines.symm.trans hlines')
  have hnext : (issue.start.column + 1).toNat - 1 = issue.start.column.toNat - 1 + 1 := by omega
  rw [hnext] at hd
  refine ⟨line, _, marks_of_drop hline hlines hcolumn ?_ (List.cons_ne_nil c [d]) ?_⟩
  · exact cons_prefix_drop hc (cons_prefix_drop hd List.nil_prefix)
  · rw [hstop, Position.mk.injEq]
    exact ⟨rfl, by simp only [List.length_cons, List.length_nil]; omega⟩

end Issue

/-! ## Issues of a scan -/

/-- The closing brace that a scan halts at stands in the text. -/
theorem stands_closing {src : Bytes} (h : (scan src).kind = .unexpectedClosing) :
    ∃ next, Stands (Utf8.decode src) (scan src).closing '\x7d' next := by
  rw [scan_eq_verdict] at h ⊢
  rcases State.start.outcome_moves (Utf8.decode src) with
    ⟨t, hended, -⟩ | ⟨t, c, rest, closing, hhalted, hmoves, hhalt⟩
  · rw [hended] at h
    exact absurd h (Outcome.kind_verdict_ended t)
  · have turn := hhalt ▸ (hmoves.sound State.sound_start).turn c rest.head?
    obtain ⟨rfl, rfl⟩ := turn.halt_cases
    rw [hhalted]
    exact ⟨_, (Faithful.of_moves hmoves).stands⟩

theorem length_decode_raw_le (content : Bytes) :
    (Utf8.decode (Source.ofContent content).raw).length ≤ content.length :=
  Nat.le_trans (Utf8.length_decode_le _) (Lines.length_normalize_le content)

namespace Issue

/-- The last column of an interpolation is the next one, in a text that fits into memory. -/
theorem lastColumn_eq {o : Opener} (hkind : o.kind = .interpolation)
    (hcolumn : 0 ≤ o.position.column) (hword : o.position.column + 1 < 2 ^ 63) :
    lastColumn o = o.position.column + 1 := by
  have hone : (1 : Int64).toInt = 1 := rfl
  rw [lastColumn, hkind]
  simp only
  rw [Int64.toInt_add, Int64.toInt_ofInt_of_le (by omega) (by omega), hone]
  exact Int.bmod_eq_of_le (by omega) (by omega)

/-- The issue of an opener that stands in a source marks it. -/
theorem exists_marks_unmatched {content filename : Bytes} (hlength : content.length < 2 ^ 63)
    (count : Nat) {o : Opener} (h : o.Fits (Utf8.decode (Source.ofContent content).raw)) :
    ∃ line before, (unmatched filename count o).Marks (Source.ofContent content).lines line before
      (Rule.marker (Rule.ofKind o.kind)) := by
  obtain ⟨-, -, ⟨hkind, hbrace⟩ | ⟨hkind, hdollar, hbrace⟩⟩ :=
    h.charAt?_eq (Lines.cr_not_mem_normalize content)
  · rw [hkind]
    refine exists_marks_char hbrace ?_
    rw [unmatched, lastColumn, hkind]
  · rw [hkind]
    refine exists_marks_pair hdollar hbrace ?_
    have hcolumn := (exists_of_charAt? hdollar).2.1
    have hlt : o.position.column < (Utf8.decode (Source.ofContent content).raw).length := by
      rcases h with ⟨hbrace, -⟩ | ⟨-, hstands⟩
      · exact absurd (hbrace.symm.trans hkind) nofun
      · exact hstands.column_lt
    have hle := length_decode_raw_le content
    rw [unmatched, lastColumn_eq hkind (by omega) (by omega)]

/-- **An issue of a scan marks the marker that its rule is about.** -/
theorem exists_marks {content filename : Bytes} (hlength : content.length < 2 ^ 63)
    {o : Options} {issue : Issue}
    (h : issue ∈ ofVerdict filename (scan (Source.ofContent content).raw) o) :
    ∃ line before, issue.Marks (Source.ofContent content).lines line before
      (Rule.marker issue.rule) := by
  rw [ofVerdict] at h
  split at h
  · next hkind =>
    obtain rfl := List.mem_singleton.1 h
    obtain ⟨next, hstands⟩ := stands_closing hkind
    have hcr := Lines.cr_not_mem_normalize content
    exact exists_marks_char (charAt?_of_stands hcr hstands (by decide)).2.2 rfl
  · obtain ⟨opener, hopener, rfl⟩ := List.mem_map.1 h
    exact exists_marks_unmatched hlength _ (fits_of_mem_opened (List.mem_of_mem_drop hopener))
  · exact absurd h List.not_mem_nil

end Issue

end BraceBalance
