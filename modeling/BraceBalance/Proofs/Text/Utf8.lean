import BraceBalance.Text.Utf8
import Mathlib.Tactic.SplitIfs

/-!
# Proofs/Text/Utf8 — reading starts afresh at every ASCII byte

No byte under `0x80` continues a sequence, so a sequence cut off by one reads as the same sequence
cut off by the end of the text.  A text is therefore read piece by piece between its ASCII bytes
(`glyphs_append_ascii`), and an ASCII character is read from its own byte only: wherever one is
read, the text can be cut there (`exists_eq_append_of_decode`).
-/

namespace BraceBalance

namespace Utf8

/-! ## Reading one character after the other -/

theorem glyphsOnto_eq_append (acc : List Glyph) (skip : Nat) (s : Bytes) :
    glyphsOnto acc skip s = acc.reverse ++ glyphsOnto [] skip s := by
  induction s generalizing acc skip with
  | nil => simp [glyphsOnto]
  | cons b rest ih =>
    cases skip with
    | succ skip => exact ih acc skip
    | zero =>
      rw [glyphsOnto, glyphsOnto]
      cases sequence? b rest with
      | none =>
        simp only
        rw [ih (_ :: acc), ih [_]]
        simp
      | some found =>
        simp only
        rw [ih (_ :: acc), ih [_]]
        simp

/-- Bytes to be skipped belong to the character before them. -/
theorem glyphsOnto_nil_eq (skip : Nat) (s : Bytes) :
    glyphsOnto [] skip s = glyphs (s.drop skip) := by
  induction s generalizing skip with
  | nil => simp [glyphs, glyphsOnto]
  | cons b rest ih =>
    cases skip with
    | zero => rfl
    | succ skip => exact ih skip

@[simp] theorem decode_nil : decode [] = [] := rfl

/-- A sequence is read as one character with all of its bytes. -/
theorem glyphs_cons_of_some {b : UInt8} {rest : Bytes} {c : Char} {more : Nat}
    (h : sequence? b rest = some (c, more)) :
    glyphs (b :: rest) = ⟨c, b :: rest.take more⟩ :: glyphs (rest.drop more) := by
  rw [glyphs, glyphsOnto, h]
  simp only
  rw [glyphsOnto_eq_append, glyphsOnto_nil_eq]
  rfl

/-- A byte that begins no sequence is read as the replacement, alone. -/
theorem glyphs_cons_of_none {b : UInt8} {rest : Bytes} (h : sequence? b rest = none) :
    glyphs (b :: rest) = ⟨replacement, [b]⟩ :: glyphs rest := by
  rw [glyphs, glyphsOnto, h]
  simp only
  rw [glyphsOnto_eq_append, glyphsOnto_nil_eq]
  rfl

theorem decode_cons_of_some {b : UInt8} {rest : Bytes} {c : Char} {more : Nat}
    (h : sequence? b rest = some (c, more)) :
    decode (b :: rest) = c :: decode (rest.drop more) := by
  rw [decode, glyphs_cons_of_some h]
  rfl

theorem decode_cons_of_none {b : UInt8} {rest : Bytes} (h : sequence? b rest = none) :
    decode (b :: rest) = replacement :: decode rest := by
  rw [decode, glyphs_cons_of_none h]
  rfl

/-! ## Sequences

A lead tells how many bytes follow and, in a few cases, a narrower range for the second one. -/

/-- An ASCII byte continues no sequence. -/
theorem within_eq_false_of_lt {low high b : UInt8} (hlow : 0x80 ≤ low) (hb : b < 0x80) :
    within low high b = false := by
  simp only [within, Bool.and_eq_false_iff, decide_eq_false_iff_not]
  left
  intro h
  exact absurd hb (UInt8.not_lt.2 (UInt8.le_trans hlow h))

theorem le_secondRange_fst (lead : UInt8) : 0x80 ≤ (secondRange lead).1 := by
  unfold secondRange
  split_ifs <;> decide

/-- A byte that continues nothing cuts a sequence off like the end of the text. -/
theorem sequence?_append_ascii {b : UInt8} (hb : b < 0x80) (lead : UInt8) (a rest : Bytes) :
    sequence? lead (a ++ b :: rest) = sequence? lead a := by
  have hsecond : within (secondRange lead).1 (secondRange lead).2 b = false :=
    within_eq_false_of_lt (le_secondRange_fst lead) hb
  have hlater : within 0x80 0xbf b = false := within_eq_false_of_lt (by decide) hb
  unfold sequence?
  split_ifs
  · rfl
  · cases a with
    | nil => simp [hsecond]
    | cons x a => rfl
  · rcases a with _ | ⟨x, _ | ⟨y, a⟩⟩
    · cases rest <;> simp [hsecond]
    · simp [hlater]
    · rfl
  · rcases a with _ | ⟨x, _ | ⟨y, _ | ⟨z, a⟩⟩⟩
    · rcases rest with _ | ⟨_, _ | _⟩ <;> simp [hsecond]
    · cases rest <;> simp [hlater]
    · simp [hlater]
    · rfl
  · rfl

/-- An ASCII byte is a sequence of its own. -/
theorem sequence?_ascii {b : UInt8} (hb : b < 0x80) (rest : Bytes) :
    sequence? b rest = some (Char.ofNat b.toNat, 0) := by
  unfold sequence?
  simp [hb]

theorem toNat_of_within {low high b : UInt8} (h : within low high b) :
    low.toNat ≤ b.toNat ∧ b.toNat ≤ high.toNat := by
  simpa [within, UInt8.le_iff_toNat_le] using h

/-- The bytes of a well-formed sequence, and the number that they spell. -/
inductive Spelling : Bytes → Nat → Prop
  | one {lead : UInt8} (hlead : lead < 0x80) : Spelling [lead] lead.toNat
  | two {lead x : UInt8} (hlead : within 0xc2 0xdf lead)
      (hx : within (secondRange lead).1 (secondRange lead).2 x) :
      Spelling [lead, x] (lead.toNat % 0x20 * 0x40 + bits x)
  | three {lead x y : UInt8} (hlead : within 0xe0 0xef lead)
      (hx : within (secondRange lead).1 (secondRange lead).2 x) (hy : within 0x80 0xbf y) :
      Spelling [lead, x, y] ((lead.toNat % 0x10 * 0x40 + bits x) * 0x40 + bits y)
  | four {lead x y z : UInt8} (hlead : within 0xf0 0xf4 lead)
      (hx : within (secondRange lead).1 (secondRange lead).2 x) (hy : within 0x80 0xbf y)
      (hz : within 0x80 0xbf z) :
      Spelling [lead, x, y, z]
        (((lead.toNat % 0x08 * 0x40 + bits x) * 0x40 + bits y) * 0x40 + bits z)

/-- **A sequence is read if its bytes spell a number.** -/
theorem exists_spelling {lead : UInt8} {rest : Bytes} {c : Char} {more : Nat}
    (h : sequence? lead rest = some (c, more)) :
    more ≤ rest.length ∧ ∃ n, Spelling (lead :: rest.take more) n ∧ c = Char.ofNat n := by
  unfold sequence? at h
  split_ifs at h with h1 h2 h3 h4
  · cases h
    exact ⟨Nat.zero_le _, _, .one h1, rfl⟩
  · rcases rest with _ | ⟨x, rest⟩
    · cases h
    · simp only [Option.ite_none_right_eq_some] at h
      obtain ⟨hx, h⟩ := h
      cases h
      exact ⟨by simp, _, .two h2 hx, rfl⟩
  · rcases rest with _ | ⟨x, _ | ⟨y, rest⟩⟩
    · cases h
    · cases h
    · simp only [Option.ite_none_right_eq_some, Bool.and_eq_true] at h
      obtain ⟨⟨hx, hy⟩, h⟩ := h
      cases h
      exact ⟨by simp, _, .three h3 hx hy, rfl⟩
  · rcases rest with _ | ⟨x, _ | ⟨y, _ | ⟨z, rest⟩⟩⟩
    · cases h
    · cases h
    · cases h
    · simp only [Option.ite_none_right_eq_some, Bool.and_eq_true] at h
      obtain ⟨⟨⟨hx, hy⟩, hz⟩, h⟩ := h
      cases h
      exact ⟨by simp, _, .four h4 hx hy hz, rfl⟩

/-- What follows the lead carries six bits, and the least byte after some leads makes up for a lead
that carries none, the greatest one for a lead that carries too much. -/
theorem second_of_within {lead x : UInt8} (h : within (secondRange lead).1 (secondRange lead).2 x) :
    x.toNat = 0x80 + bits x ∧ bits x < 0x40 ∧ (lead.toNat = 0xe0 → 0x20 ≤ bits x) ∧
      (lead.toNat = 0xed → bits x < 0x20) ∧ (lead.toNat = 0xf0 → 0x10 ≤ bits x) ∧
      (lead.toNat = 0xf4 → bits x < 0x10) := by
  obtain ⟨hlow, hhigh⟩ := toNat_of_within h
  unfold bits
  unfold secondRange at hlow hhigh
  split_ifs at hlow hhigh <;> simp_all [← UInt8.toNat_inj] <;> omega

/-- A sequence is an ASCII byte alone, or it spells a number that no byte alone spells. -/
theorem Spelling.cases_ascii {s : Bytes} {n : Nat} (h : Spelling s n) :
    (∃ lead, s = [lead] ∧ n = lead.toNat) ∨ 0x80 ≤ n := by
  cases h with
  | one => exact .inl ⟨_, rfl, rfl⟩
  | @two lead x hlead hx =>
    have hrange : 0xc2 ≤ lead.toNat ∧ lead.toNat ≤ 0xdf := toNat_of_within hlead
    exact .inr (by omega)
  | @three lead x y hlead hx hy =>
    have hrange : 0xe0 ≤ lead.toNat ∧ lead.toNat ≤ 0xef := toNat_of_within hlead
    have hsecond := second_of_within hx
    exact .inr (by omega)
  | @four lead x y z hlead hx hy hz =>
    have hrange : 0xf0 ≤ lead.toNat ∧ lead.toNat ≤ 0xf4 := toNat_of_within hlead
    have hsecond := second_of_within hx
    exact .inr (by omega)

/-! ## Cutting a text at its ASCII bytes

No sequence contains an ASCII byte but one that is that byte, even if a sequence is cut off in front
of it. -/

/-- Induction along the characters of a text. -/
theorem sequence_induction {motive : Bytes → Prop} (nil : motive [])
    (broken : ∀ b rest, sequence? b rest = none → motive rest → motive (b :: rest))
    (spelled : ∀ b rest c more, sequence? b rest = some (c, more) → more ≤ rest.length →
      motive (rest.drop more) → motive (b :: rest)) : ∀ s, motive s
  | [] => nil
  | b :: rest =>
    match h : sequence? b rest with
    | none => broken b rest h (sequence_induction nil broken spelled rest)
    | some (c, more) =>
      spelled b rest c more h (exists_spelling h).1
        (sequence_induction nil broken spelled (rest.drop more))
termination_by s => s.length
decreasing_by
  · exact Nat.lt_succ_self _
  · rw [List.length_drop, List.length_cons]
    omega

/-- **Reading starts afresh at an ASCII byte.** -/
theorem glyphs_append_ascii {b : UInt8} (hb : b < 0x80) (a rest : Bytes) :
    glyphs (a ++ b :: rest) = glyphs a ++ ⟨Char.ofNat b.toNat, [b]⟩ :: glyphs rest := by
  induction a using sequence_induction with
  | nil => exact glyphs_cons_of_some (sequence?_ascii hb rest)
  | broken x a h ih =>
    have happend := (sequence?_append_ascii hb x a rest).trans h
    rw [List.cons_append, glyphs_cons_of_none happend, glyphs_cons_of_none h, ih, List.cons_append]
  | spelled x a c more h hmore ih =>
    have happend := (sequence?_append_ascii hb x a rest).trans h
    rw [List.cons_append, glyphs_cons_of_some happend, glyphs_cons_of_some h,
      List.take_append_of_le_length hmore, List.drop_append_of_le_length hmore, ih,
      List.cons_append]

/-- An ASCII byte is read by itself, and parts what stands on either side of it. -/
theorem decode_append_ascii {b : UInt8} (hb : b < 0x80) (a rest : Bytes) :
    decode (a ++ b :: rest) = decode a ++ Char.ofNat b.toNat :: decode rest := by
  rw [decode, glyphs_append_ascii hb, List.map_append, List.map_cons]
  rfl

/-- A run of ASCII bytes at the end of a text is read byte by byte. -/
theorem decode_append_of_ascii {w : Bytes} (hw : ∀ b ∈ w, b < 0x80) (a : Bytes) :
    decode (a ++ w) = decode a ++ w.map fun b => Char.ofNat b.toNat := by
  induction w generalizing a with
  | nil => simp
  | cons b w ih =>
    obtain ⟨hb, hw⟩ := List.forall_mem_cons.1 hw
    have htail : decode w = w.map fun b => Char.ofNat b.toNat := ih hw []
    rw [decode_append_ascii hb, htail, List.map_cons]

@[simp] theorem join_cons (g : Glyph) (gs : List Glyph) : join (g :: gs) = g.bytes ++ join gs :=
  List.flatMap_cons

/-- No byte of a text is lost. -/
theorem join_glyphs (s : Bytes) : join (glyphs s) = s := by
  induction s using sequence_induction with
  | nil => rfl
  | broken b rest h ih =>
    rw [glyphs_cons_of_none h, join_cons, ih]
    rfl
  | spelled b rest c more h _ ih =>
    rw [glyphs_cons_of_some h, join_cons, ih, List.cons_append, List.take_append_drop]

theorem toNat_ofNat {n : Nat} (h : Char.ofNat n ≠ '\x00') : (Char.ofNat n).toNat = n := by
  by_cases hn : n.isValidChar
  · rw [Char.ofNat, dif_pos hn]
    rfl
  · exact absurd (dif_neg hn) h

/-- The first byte of a sequence that reads as an ASCII character is all of it. -/
theorem eq_of_sequence?_ascii {lead : UInt8} {rest : Bytes} {c : Char} {more : Nat}
    (hc : c.toNat < 0x80) (h0 : c ≠ '\x00') (h : sequence? lead rest = some (c, more)) :
    lead = UInt8.ofNat c.toNat ∧ more = 0 := by
  obtain ⟨hmore, n, hspelling, rfl⟩ := exists_spelling h
  rw [toNat_ofNat h0] at hc ⊢
  obtain ⟨b, hs, rfl⟩ | hn := hspelling.cases_ascii
  · obtain ⟨rfl, htake⟩ := List.cons.inj hs
    have hlength := congrArg List.length htake
    rw [List.length_take_of_le hmore] at hlength
    exact ⟨UInt8.ofNat_toNat.symm, hlength⟩
  · omega

/-- **A text is cut in two at any ASCII character it reads as.** -/
theorem exists_eq_append_of_decode {c : Char} (hc : c.toNat < 0x80) (h0 : c ≠ '\x00') {s : Bytes}
    {before after : List Char} (h : decode s = before ++ c :: after) :
    ∃ a rest, s = a ++ UInt8.ofNat c.toNat :: rest ∧ decode a = before ∧ decode rest = after := by
  have hb : UInt8.ofNat c.toNat < 0x80 := by
    rw [UInt8.lt_iff_toNat_lt, UInt8.toNat_ofNat_of_lt' (Nat.lt_trans hc (by decide))]
    exact hc
  induction s using sequence_induction generalizing before with
  | nil => simp at h
  | broken b rest hseq ih =>
    rw [decode_cons_of_none hseq] at h
    cases before with
    | nil =>
      obtain ⟨rfl, -⟩ := List.cons.inj h
      exact absurd hc (by decide)
    | cons d before =>
      obtain ⟨rfl, htail⟩ := List.cons.inj h
      obtain ⟨a, rest, rfl, rfl, rfl⟩ := ih htail
      rw [sequence?_append_ascii hb] at hseq
      exact ⟨b :: a, rest, rfl, decode_cons_of_none hseq, rfl⟩
  | spelled b rest d more hseq hmore ih =>
    rw [decode_cons_of_some hseq] at h
    cases before with
    | nil =>
      obtain ⟨rfl, rfl⟩ := List.cons.inj h
      obtain ⟨rfl, rfl⟩ := eq_of_sequence?_ascii hc h0 hseq
      exact ⟨[], rest, rfl, rfl, rfl⟩
    | cons d' before =>
      obtain ⟨rfl, htail⟩ := List.cons.inj h
      obtain ⟨a, after, hrest, rfl, rfl⟩ := ih htail
      have hlength : (rest.take more).length = more := List.length_take_of_le hmore
      have hsplit : rest = (rest.take more ++ a) ++ UInt8.ofNat c.toNat :: after := by
        rw [List.append_assoc, ← hrest, List.take_append_drop]
      have hseq' : sequence? b (rest.take more ++ a) = some (d, more) := by
        rw [← sequence?_append_ascii hb b _ after, ← hsplit]
        exact hseq
      refine ⟨b :: (rest.take more ++ a), after, congrArg (b :: ·) hsplit, ?_, rfl⟩
      rw [decode_cons_of_some hseq', List.drop_left' hlength]

/-- An ASCII character stands for its own byte. -/
theorem mem_of_mem_decode {c : Char} (hc : c.toNat < 0x80) (h0 : c ≠ '\x00') {s : Bytes}
    (h : c ∈ decode s) : UInt8.ofNat c.toNat ∈ s := by
  obtain ⟨before, after, hsplit⟩ := List.append_of_mem h
  obtain ⟨a, rest, rfl, -, -⟩ := exists_eq_append_of_decode hc h0 hsplit
  exact List.mem_append_right _ List.mem_cons_self

end Utf8

end BraceBalance
