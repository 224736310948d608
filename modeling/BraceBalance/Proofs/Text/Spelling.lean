import BraceBalance.Proofs.Text.Utf8

/-!
# Proofs/Text/Spelling — characters and the bytes that spell them

    bytes ──decode──▸ characters ──encode──▸ bytes

A well-formed sequence is the only spelling of its character (`Utf8.Spelling.encodeChar_eq`) and is
read as that character whatever follows it (`Utf8.Spelling.sequence?_eq`).  So wherever no byte is
broken, characters can be taken for their bytes: a text is spelled back (`Utf8.encode_decode`), and
it is read piece by piece (`Utf8.decode_append`).  A broken byte reads as the replacement character,
so its absence is all that is asked for.
-/

namespace BraceBalance

namespace Utf8

/-! ## Sequences and characters

How many bytes spell a number follows from the number, and which ones from its bits. -/

/-- A later byte of a sequence carries six bits. -/
theorem later_of_within {y : UInt8} (h : within 0x80 0xbf y) :
    y.toNat = 0x80 + bits y ∧ bits y < 0x40 := by
  have hrange : 0x80 ≤ y.toNat ∧ y.toNat ≤ 0xbf := toNat_of_within h
  unfold bits
  omega

/-- A byte that is part of a longer sequence is not ASCII. -/
theorem not_lt_of_within {low high b : UInt8} (h : within low high b = true)
    (hlow : 0x80 ≤ low) : ¬ b < 0x80 := by
  intro hb
  rw [within_eq_false_of_lt hlow hb] at h
  exact Bool.false_ne_true h

/-- Leads of sequences of different lengths are told apart. -/
theorem within_eq_false_of_within {low high low' high' b : UInt8} (h : within low high b = true)
    (hlt : high' < low) : within low' high' b = false := by
  simp only [within, Bool.and_eq_true, decide_eq_true_eq, Bool.and_eq_false_iff,
    decide_eq_false_iff_not] at h ⊢
  exact .inr fun hle => absurd (UInt8.lt_of_le_of_lt hle hlt) (UInt8.not_lt.2 h.1)

namespace Spelling

/-- **A spelling is read, whatever follows it.** -/
theorem sequence?_eq {lead : UInt8} {bs : Bytes} {n : Nat} (h : Spelling (lead :: bs) n)
    (rest : Bytes) : sequence? lead (bs ++ rest) = some (Char.ofNat n, bs.length) := by
  unfold sequence?
  cases h with
  | one hlead => simp [hlead]
  | two hlead hx =>
    have h1 := not_lt_of_within hlead (by decide)
    simp [h1, hlead, hx]
  | three hlead hx hy =>
    have h1 := not_lt_of_within hlead (by decide)
    have h2 : within 0xc2 0xdf lead = false := within_eq_false_of_within hlead (by decide)
    simp [h1, h2, hlead, hx, hy]
  | four hlead hx hy hz =>
    have h1 := not_lt_of_within hlead (by decide)
    have h2 : within 0xc2 0xdf lead = false := within_eq_false_of_within hlead (by decide)
    have h3 : within 0xe0 0xef lead = false := within_eq_false_of_within hlead (by decide)
    simp [h1, h2, h3, hlead, hx, hy, hz]

/-- A spelling at the start of a text is read as its character. -/
theorem decode_append {s : Bytes} {n : Nat} (h : Spelling s n) (rest : Bytes) :
    decode (s ++ rest) = Char.ofNat n :: decode rest := by
  obtain ⟨lead, bs, rfl⟩ : ∃ lead bs, s = lead :: bs := by cases h <;> exact ⟨_, _, rfl⟩
  rw [List.cons_append, decode_cons_of_some (h.sequence?_eq rest), List.drop_left]

/-- What is spelled is a character: neither a surrogate nor past the last one. -/
theorem isValidChar {s : Bytes} {n : Nat} (h : Spelling s n) : n.isValidChar := by
  unfold Nat.isValidChar
  cases h with
  | @one lead hlead =>
    have hbyte := lead.toNat_lt
    omega
  | two hlead hx =>
    have hsecond := second_of_within hx
    omega
  | @three lead x y hlead hx hy =>
    have hrange : 0xe0 ≤ lead.toNat ∧ lead.toNat ≤ 0xef := toNat_of_within hlead
    have hsecond := second_of_within hx
    have hthird := later_of_within hy
    omega
  | @four lead x y z hlead hx hy hz =>
    have hrange : 0xf0 ≤ lead.toNat ∧ lead.toNat ≤ 0xf4 := toNat_of_within hlead
    have hsecond := second_of_within hx
    have hthird := later_of_within hy
    have hfourth := later_of_within hz
    omega

theorem ofNat_eq {b : UInt8} {n : Nat} (h : n = b.toNat) : UInt8.ofNat n = b := by
  rw [h, UInt8.ofNat_toNat]

/-- **A character has one spelling.** -/
theorem encodeChar_eq {s : Bytes} {n : Nat} (h : Spelling s n) : encodeChar (Char.ofNat n) = s := by
  have hn : (Char.ofNat n).val.toNat = n := by
    rw [Char.ofNat, dif_pos h.isValidChar]
    rfl
  rw [encodeChar, String.utf8EncodeChar, hn]
  cases h with
  | @one lead hlead =>
    have hrange : lead.toNat < 0x80 := UInt8.lt_iff_toNat_lt.1 hlead
    rw [if_pos (by omega), UInt8.ofNat_toNat]
  | @two lead x hlead hx =>
    have hrange : 0xc2 ≤ lead.toNat ∧ lead.toNat ≤ 0xdf := toNat_of_within hlead
    have hsecond := second_of_within hx
    rw [if_neg (by omega), if_pos (by omega), @ofNat_eq lead _ (by omega),
      @ofNat_eq x _ (by omega)]
  | @three lead x y hlead hx hy =>
    have hrange : 0xe0 ≤ lead.toNat ∧ lead.toNat ≤ 0xef := toNat_of_within hlead
    have hsecond := second_of_within hx
    have hthird := later_of_within hy
    rw [if_neg (by omega), if_neg (by omega), if_pos (by omega), @ofNat_eq lead _ (by omega),
      @ofNat_eq x _ (by omega), @ofNat_eq y _ (by omega)]
  | @four lead x y z hlead hx hy hz =>
    have hrange : 0xf0 ≤ lead.toNat ∧ lead.toNat ≤ 0xf4 := toNat_of_within hlead
    have hsecond := second_of_within hx
    have hthird := later_of_within hy
    have hfourth := later_of_within hz
    rw [if_neg (by omega), if_neg (by omega), if_neg (by omega), @ofNat_eq lead _ (by omega),
      @ofNat_eq x _ (by omega), @ofNat_eq y _ (by omega), @ofNat_eq z _ (by omega)]

end Spelling

/-! ## Texts without broken bytes -/

theorem encode_cons (c : Char) (cs : List Char) : encode (c :: cs) = encodeChar c ++ encode cs :=
  List.flatMap_cons

theorem encode_append (cs ds : List Char) : encode (cs ++ ds) = encode cs ++ encode ds :=
  List.flatMap_append

/-- **A text can be cut behind characters that are not broken**: it begins with their spelling, and
their spelling is read as those characters whatever follows. -/
theorem encode_of_decode {s : Bytes} {cs after : List Char} (h : decode s = cs ++ after)
    (hcs : replacement ∉ cs) :
    encode cs <+: s ∧ ∀ rest, decode (encode cs ++ rest) = cs ++ decode rest := by
  induction s using sequence_induction generalizing cs with
  | nil =>
    obtain ⟨rfl, -⟩ := List.append_eq_nil_iff.1 h.symm
    exact ⟨List.prefix_rfl, fun rest => rfl⟩
  | broken b s hseq ih =>
    rcases cs with _ | ⟨c, cs⟩
    · exact ⟨List.nil_prefix, fun rest => rfl⟩
    · rw [decode_cons_of_none hseq] at h
      exact absurd ((List.cons.inj h).1 ▸ List.mem_cons_self) hcs
  | spelled b s c more hseq hmore ih =>
    rcases cs with _ | ⟨d, cs⟩
    · exact ⟨List.nil_prefix, fun rest => rfl⟩
    · rw [decode_cons_of_some hseq] at h
      obtain ⟨rfl, htail⟩ := List.cons.inj h
      obtain ⟨⟨rest, hrest⟩, hread⟩ := ih htail fun hmem => hcs (List.mem_cons_of_mem _ hmem)
      obtain ⟨-, n, hspelling, rfl⟩ := exists_spelling hseq
      refine ⟨⟨rest, ?_⟩, fun rest => ?_⟩
      · rw [encode_cons, hspelling.encodeChar_eq, List.append_assoc, hrest, List.cons_append,
          List.take_append_drop]
      · rw [encode_cons, hspelling.encodeChar_eq, List.append_assoc, hspelling.decode_append,
          hread, List.cons_append]

/-- Only the empty text has no characters. -/
theorem eq_nil_of_decode {s : Bytes} (h : decode s = []) : s = [] := by
  rcases s with _ | ⟨b, s⟩
  · rfl
  · rcases hseq : sequence? b s with _ | ⟨c, more⟩
    · rw [decode_cons_of_none hseq] at h
      exact absurd h (List.cons_ne_nil _ _)
    · rw [decode_cons_of_some hseq] at h
      exact absurd h (List.cons_ne_nil _ _)

/-- **A text without broken bytes is spelled back.** -/
theorem encode_decode {s : Bytes} (h : replacement ∉ decode s) : encode (decode s) = s := by
  obtain ⟨⟨rest, hrest⟩, hread⟩ := encode_of_decode (List.append_nil (decode s)).symm h
  have hdecode := hread rest
  rw [hrest, List.self_eq_append_right] at hdecode
  rwa [eq_nil_of_decode hdecode, List.append_nil] at hrest

/-- **What stands behind a text without broken bytes is read by itself.** -/
theorem decode_append {a : Bytes} (h : replacement ∉ decode a) (rest : Bytes) :
    decode (a ++ rest) = decode a ++ decode rest := by
  have hread := (encode_of_decode (List.append_nil (decode a)).symm h).2 rest
  rwa [encode_decode h] at hread

end Utf8

end BraceBalance
