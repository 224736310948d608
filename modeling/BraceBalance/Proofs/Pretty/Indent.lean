import BraceBalance.Pretty.Indent
import BraceBalance.Proofs.Text.Spelling
import Mathlib.Data.List.TakeWhile

/-!
# Proofs/Pretty/Indent — the indent of lines is their greatest one in common

    lines ──indent──▸ characters ──shared──▸ characters ──encode──▸ common indent

What two runs of characters share has exactly the runs that both begin with at its beginning
(`Indent.prefix_shared_iff`): it is their greatest lower bound, and so is the fold over all lines.
White space is never broken, so between bytes and characters nothing is lost (`Bytes.indent_eq`).
-/

namespace BraceBalance

/-! ## White space

Indents are found by characters and taken off by bytes; that both come to the same rests on white
space being spelled in one way only. -/

namespace Bytes

/-- A text is blank exactly if each of its characters is white space. -/
theorem isBlankThroughout_iff {s : Bytes} :
    s.isBlankThroughout = true ↔ ∀ c ∈ Utf8.decode s, isBlank c = true := by
  simp [isBlankThroughout, Utf8.decode]

/-- What stands for an ill-formed byte is not white space. -/
theorem replacement_not_mem {cs : List Char} (h : ∀ c ∈ cs, isBlank c = true) :
    Utf8.replacement ∉ cs :=
  fun hmem => absurd (h _ hmem) (by decide)

/-- The indent of a line is spelled by the white space that its characters begin with. -/
theorem indent_eq (s : Bytes) : s.indent = Utf8.encode ((Utf8.decode s).takeWhile isBlank) := by
  rw [indent]
  induction s using Utf8.sequence_induction with
  | nil => rfl
  | broken b s hseq ih =>
    rw [Utf8.glyphs_cons_of_none hseq, Utf8.decode_cons_of_none hseq]
    rfl
  | spelled b s c more hseq hmore ih =>
    obtain ⟨-, n, hspelling, rfl⟩ := Utf8.exists_spelling hseq
    rw [Utf8.glyphs_cons_of_some hseq, Utf8.decode_cons_of_some hseq]
    by_cases hblank : isBlank (Char.ofNat n) = true
    · simp only [List.takeWhile_cons, hblank, if_true]
      rw [Utf8.join_cons, Utf8.encode_cons, hspelling.encodeChar_eq, ih]
    · simp only [List.takeWhile_cons, hblank, Bool.false_eq_true, if_false]
      rfl

/-- White space that a text begins with is spelled in it, and read back. -/
theorem encode_of_begins {s : Bytes} {cs : List Char}
    (h : cs <+: (Utf8.decode s).takeWhile isBlank) :
    Utf8.encode cs <+: s ∧ Utf8.decode (Utf8.encode cs) = cs := by
  obtain ⟨after, hafter⟩ := h.trans (List.takeWhile_prefix _)
  have hblank : ∀ c ∈ cs, isBlank c = true := fun c hc => List.mem_takeWhile_imp (h.subset hc)
  obtain ⟨hspelled, hread⟩ := Utf8.encode_of_decode hafter.symm (replacement_not_mem hblank)
  refine ⟨hspelled, ?_⟩
  rw [← List.append_nil (Utf8.encode cs), hread, Utf8.decode_nil, List.append_nil]

/-- White space spelled at the beginning of a text is white space that its characters begin with. -/
theorem decode_begins {s t : Bytes} (h : t <+: s) (ht : t.isBlankThroughout = true) :
    Utf8.decode t <+: (Utf8.decode s).takeWhile isBlank := by
  obtain ⟨rest, rfl⟩ := h
  have hblank := isBlankThroughout_iff.1 ht
  rw [Utf8.decode_append (replacement_not_mem hblank), List.takeWhile_append_of_pos hblank]
  exact List.prefix_append _ _

/-- The indent of a line is read as the white space that its characters begin with. -/
theorem decode_indent (s : Bytes) : Utf8.decode s.indent = (Utf8.decode s).takeWhile isBlank := by
  rw [indent_eq]
  exact (encode_of_begins List.prefix_rfl).2

/-- What a text begins with, and the rest of it, make up the text. -/
theorem dropStart_of_prefix {start s : Bytes} (h : start <+: s) : start ++ dropStart start s = s := by
  rw [dropStart, if_pos (List.isPrefixOf_iff_prefix.2 h)]
  exact List.prefix_iff_eq_append.1 h

end Bytes

namespace Indent

/-! ## What runs of characters share -/

theorem shared_nil (as : List Char) : shared as [] = [] := by
  rw [shared]
  nofun

/-- **What two runs share is the greatest run that both begin with.** -/
theorem prefix_shared_iff {as bs cs : List Char} : cs <+: shared as bs ↔ cs <+: as ∧ cs <+: bs := by
  induction as generalizing bs cs with
  | nil =>
    rw [shared, List.prefix_nil, and_iff_left_of_imp]
    · rintro rfl
      exact List.nil_prefix
    · nofun
  | cons a as ih =>
    rcases bs with _ | ⟨b, bs⟩
    · rw [shared_nil, List.prefix_nil, and_iff_right_of_imp]
      rintro rfl
      exact List.nil_prefix
    · rcases cs with _ | ⟨c, cs⟩
      · simp
      · rw [shared]
        split_ifs with hab
        · simp only [List.cons_prefix_cons, ih, hab]
          exact and_and_left
        · simp only [List.cons_prefix_cons, List.prefix_nil, List.cons_ne_nil, false_iff]
          rintro ⟨⟨rfl, -⟩, rfl, -⟩
          exact hab rfl

/-- What any number of runs share is the greatest run that all of them begin with. -/
theorem prefix_foldl_shared_iff {first cs : List Char} {rest : List (List Char)} :
    cs <+: rest.foldl shared first ↔ ∀ as ∈ first :: rest, cs <+: as := by
  induction rest generalizing first with
  | nil => simp
  | cons as rest ih =>
    rw [List.foldl_cons, ih]
    simp [prefix_shared_iff, and_assoc]

/-! ## The common indent -/

/-- The common indent is spelled by the greatest run of white space that all lines but blank ones
begin with. -/
theorem exists_common {lines : List Bytes}
    (h : ∃ line ∈ lines, line.isBlankThroughout = false) :
    ∃ cs, common lines = Utf8.encode cs ∧ ∀ ds, ds <+: cs ↔
      ∀ line ∈ lines, line.isBlankThroughout = false →
        ds <+: (Utf8.decode line).takeWhile isBlank := by
  obtain ⟨line, hline, hblank⟩ := h
  have hmem : line ∈ lines.filter (!·.isBlankThroughout) := by simp [hline, hblank]
  rw [common]
  generalize hindents : (lines.filter (!·.isBlankThroughout)).map (fun line =>
    Utf8.decode line.indent) = indents
  rcases indents with _ | ⟨first, rest⟩
  · exact absurd (List.map_eq_nil_iff.1 hindents) (List.ne_nil_of_mem hmem)
  · refine ⟨_, rfl, fun ds => ?_⟩
    rw [prefix_foldl_shared_iff, ← hindents, List.forall_mem_map]
    simp [Bytes.decode_indent]

/-- An indent is white space that all lines but blank ones begin with, and nothing greater is. -/
structure Greatest (lines : List Bytes) (indent : Bytes) : Prop where
  blank : indent.isBlankThroughout = true
  begins : ∀ line ∈ lines, line.isBlankThroughout = false → indent <+: line
  greatest : (∃ line ∈ lines, line.isBlankThroughout = false) → ∀ other : Bytes,
    other.isBlankThroughout = true →
    (∀ line ∈ lines, line.isBlankThroughout = false → other <+: line) → other <+: indent

theorem common_of_blank {lines : List Bytes}
    (h : ¬ ∃ line ∈ lines, line.isBlankThroughout = false) : common lines = [] := by
  have hnone : lines.filter (!·.isBlankThroughout) = [] := by
    simpa [List.filter_eq_nil_iff] using h
  rw [common, hnone]
  rfl

/-- **The common indent is the greatest.** -/
theorem greatest_common (lines : List Bytes) : Greatest lines (common lines) := by
  by_cases h : ∃ line ∈ lines, line.isBlankThroughout = false
  · obtain ⟨cs, hcommon, hcs⟩ := exists_common h
    have hbegins := (hcs cs).1 List.prefix_rfl
    obtain ⟨line, hline, hnonblank⟩ := h
    rw [hcommon]
    refine ⟨?_, fun line hline hnonblank =>
      (Bytes.encode_of_begins (hbegins line hline hnonblank)).1, ?_⟩
    · rw [Bytes.isBlankThroughout_iff, (Bytes.encode_of_begins (hbegins line hline hnonblank)).2]
      exact fun c hc => List.mem_takeWhile_imp ((hbegins line hline hnonblank).subset hc)
    · intro _ other hblank hother
      obtain ⟨more, hmore⟩ := (hcs (Utf8.decode other)).2 fun line hline hnonblank =>
        Bytes.decode_begins (hother line hline hnonblank) hblank
      refine ⟨Utf8.encode more, ?_⟩
      rw [← hmore, Utf8.encode_append, Utf8.encode_decode
        (Bytes.replacement_not_mem (Bytes.isBlankThroughout_iff.1 hblank))]
  · rw [common_of_blank h]
    refine ⟨rfl, fun line _ _ => ?_, fun hsome => absurd hsome h⟩
    exact List.nil_prefix

end Indent

end BraceBalance
