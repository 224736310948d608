import BraceBalance.Path.Glob
import BraceBalance.Proofs.Text.Utf8

/-!
# Proofs/Path/Literal — patterns that stand for themselves

    pattern ──signs──▸ signs ──parts──▸ parts ──chunks──▸ chunks ──▸ matches

A pattern without `*`, `?`, `[` and backslash is read as its own bytes, one part each
(`Glob.parts_signs`), which make up a single chunk without a star (`Glob.chunks_bytes`).  So it
matches itself and nothing else, whatever its encoding.
-/

namespace BraceBalance

namespace Glob

/-- A pattern in which no character has a meaning of its own. -/
structure Literal (pattern : Bytes) : Prop where
  star : 0x2a ∉ pattern
  question : 0x3f ∉ pattern
  bracket : 0x5b ∉ pattern
  backslash : 0x5c ∉ pattern

instance (pattern : Bytes) : Decidable (Literal pattern) :=
  decidable_of_iff
    (0x2a ∉ pattern ∧ 0x3f ∉ pattern ∧ 0x5b ∉ pattern ∧ 0x5c ∉ pattern)
    ⟨fun ⟨hs, hq, hb, he⟩ => ⟨hs, hq, hb, he⟩, fun h => ⟨h.star, h.question, h.bracket, h.backslash⟩⟩

/-- A character that reads as itself. -/
def Plain (g : Glyph) : Prop := g.char ≠ '*' ∧ g.char ≠ '?' ∧ g.char ≠ '[' ∧ g.char ≠ '\\'

/-- Every character of a literal pattern reads as itself. -/
theorem Literal.plain {pattern : Bytes} (h : Literal pattern) :
    ∀ g ∈ Utf8.glyphs pattern, Plain g := by
  intro g hg
  have hchar : ∀ c : Char, c.toNat < 0x80 → c ≠ '\x00' → UInt8.ofNat c.toNat ∉ pattern →
      g.char ≠ c := by
    rintro c hc h0 hnot rfl
    exact hnot (Utf8.mem_of_mem_decode hc h0 (List.mem_map_of_mem hg))
  exact ⟨hchar '*' (by decide) (by decide) h.star, hchar '?' (by decide) (by decide) h.question,
    hchar '[' (by decide) (by decide) h.bracket, hchar '\\' (by decide) (by decide) h.backslash⟩

/-! ## Parts

A pattern is read in two passes, of which the first takes off backslashes and the second gives
characters their meaning; without such characters both pass the text through. -/

theorem signs_of_plain {gs : List Glyph} (h : ∀ g ∈ gs, Plain g) :
    signs gs = some (gs.map fun g => ⟨g, false⟩) := by
  fun_induction signs gs with
  | case1 => rfl
  | case2 g hg => exact absurd hg (h g List.mem_cons_self).2.2.2
  | case3 g hg => rfl
  | case4 g next rest hg => exact absurd hg (h g List.mem_cons_self).2.2.2
  | case5 g next rest hg ih =>
    rw [ih fun g hg => h g (List.mem_cons_of_mem _ hg)]
    rfl

/-- A character that reads as itself stands for its own bytes. -/
theorem parts_plain_cons {g : Glyph} (h : Plain g) (rest : List Sign) :
    parts none (⟨g, false⟩ :: rest) = (parts none rest).map (g.bytes.map .byte ++ ·) := by
  obtain ⟨hstar, hquestion, hbracket, -⟩ := h
  rw [parts.eq_def]
  simp [Sign.is, hstar, hquestion, hbracket]

/-- Characters that read as themselves stand for their own bytes. -/
theorem parts_of_plain {gs : List Glyph} (h : ∀ g ∈ gs, Plain g) :
    parts none (gs.map fun g => ⟨g, false⟩) = some ((Utf8.join gs).map .byte) := by
  induction gs with
  | nil => rw [List.map_nil, parts]; rfl
  | cons g gs ih =>
    obtain ⟨hg, hgs⟩ := List.forall_mem_cons.1 h
    rw [List.map_cons, parts_plain_cons hg, ih hgs, Utf8.join_cons, List.map_append]
    rfl

/-- **A literal pattern is read as its own bytes.** -/
theorem parts_signs {pattern : Bytes} (h : Literal pattern) :
    (signs (Utf8.glyphs pattern)).bind (parts none) = some (pattern.map .byte) := by
  rw [signs_of_plain h.plain, Option.bind_some, parts_of_plain h.plain, Utf8.join_glyphs]

/-! ## Chunks -/

theorem chunks_byte_cons (b : UInt8) (rest : List Part) :
    chunks (.byte b :: rest) =
      match chunks rest with
      | ⟨false, run⟩ :: more => ⟨false, .byte b :: run⟩ :: more
      | more => ⟨false, [.byte b]⟩ :: more :=
  chunks.eq_3 _ _ nofun

/-- Bytes make one chunk, without a star. -/
theorem chunks_bytes {s : Bytes} (h : s ≠ []) : chunks (s.map .byte) = [⟨false, s.map .byte⟩] := by
  induction s with
  | nil => exact absurd rfl h
  | cons b s ih =>
    rw [List.map_cons, chunks_byte_cons]
    by_cases hs : s = []
    · rw [hs]
      rfl
    · rw [ih hs]

/-- A run of bytes takes just these from a text. -/
theorem afterRun?_bytes {s t rest : Bytes} : afterRun? (s.map .byte) t = some rest ↔ t = s ++ rest := by
  induction s generalizing t with
  | nil => exact Option.some_inj
  | cons b s ih =>
    rcases t with _ | ⟨c, t⟩
    · simp [afterRun?, Part.after?]
    · by_cases hc : c = b <;> simp [afterRun?, Part.after?, hc, ih]

/-- A chunk without a star, and nothing behind it, takes a whole text. -/
theorem matchChunks_single (run : List Part) (s : Bytes) :
    matchChunks [⟨false, run⟩] s = true ↔ afterRun? run s = some [] := by
  rcases hafter : afterRun? run s with _ | rest
  · simp [matchChunks, hafter]
  · rcases rest with _ | ⟨b, rest⟩ <;> simp [matchChunks, hafter]

/-- **A literal pattern matches itself and nothing else.** -/
theorem matches?_of_literal {pattern : Bytes} (h : Literal pattern) (s : Bytes) :
    matches? pattern s = true ↔ s = pattern := by
  rw [matches?, parts_signs h]
  by_cases hpattern : pattern = []
  · rw [hpattern]
    exact List.isEmpty_iff
  · simp only
    rw [chunks_bytes hpattern, matchChunks_single, afterRun?_bytes, List.append_nil]

end Glob

end BraceBalance
