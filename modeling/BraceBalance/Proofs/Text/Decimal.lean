import BraceBalance.Text.Bytes
import Mathlib.Algebra.Group.Nat.Defs

/-!
# Proofs/Text/Decimal — numbers written in decimal

A number is written in digits, at least one, that can be read back (`Bytes.digitsValue_ofNat`); a
greater one is not shorter (`Bytes.length_ofNat_mono`), so that numbers up to a number fit into its
width.
-/

namespace BraceBalance

namespace Bytes

theorem toNat_toUInt8_of_isDigit {c : Char} (h : c.isDigit = true) :
    c.toNat.toUInt8.toNat = c.toNat := by
  have hle : c.toNat ≤ 57 := (Char.isDigit_iff_toNat.1 h).2
  rw [Nat.toUInt8, UInt8.toNat_ofNat']
  omega

/-- A number is written in digits. -/
theorem isDigit_of_mem_ofNat {n : Nat} {b : UInt8} (h : b ∈ ofNat n) : isDigit b = true := by
  obtain ⟨c, hc, rfl⟩ := List.mem_map.1 h
  have hdigit := Nat.isDigit_of_mem_toDigits (by decide) (by decide) hc
  simp only [isDigit, Bool.and_eq_true, decide_eq_true_eq, UInt8.le_iff_toNat_le,
    toNat_toUInt8_of_isDigit hdigit]
  exact Char.isDigit_iff_toNat.1 hdigit

/-- Every number has a digit. -/
theorem ofNat_ne_nil (n : Nat) : ofNat n ≠ [] := by
  simp [ofNat]

/-- A number is read back from its digits. -/
theorem digitsValue_ofNat (n : Nat) : digitsValue (ofNat n) = n := by
  have hvalue : ∀ (cs : List Char) (m : Nat), (∀ c ∈ cs, c.isDigit = true) →
      (cs.map fun c => c.toNat.toUInt8).foldl (fun n b => 10 * n + (b.toNat - 0x30)) m =
        Nat.ofDigitChars 10 cs m := by
    intro cs
    induction cs with
    | nil => intro m _; rfl
    | cons c cs ih =>
      intro m hcs
      obtain ⟨hc, hcs⟩ := List.forall_mem_cons.1 hcs
      rw [List.map_cons, List.foldl_cons, ih _ hcs, toNat_toUInt8_of_isDigit hc,
        Nat.ofDigitChars_cons]
      rfl
  rw [digitsValue, ofNat, hvalue _ _ fun c => Nat.isDigit_of_mem_toDigits (by decide) (by decide)]
  exact Nat.ofDigitChars_ten_toDigits

theorem length_ofNat_pos (n : Nat) : 0 < (ofNat n).length :=
  List.length_pos_iff.2 (ofNat_ne_nil n)

/-- A number has at most `k` digits exactly if it is less than ten to the `k`. -/
theorem length_ofNat_le_iff {n k : Nat} (hk : 0 < k) : (ofNat n).length ≤ k ↔ n < 10 ^ k := by
  rw [ofNat, List.length_map, Nat.length_toDigits_le_iff (by decide) hk]

/-- **A greater number is not shorter.** -/
theorem length_ofNat_mono {m n : Nat} (h : m ≤ n) : (ofNat m).length ≤ (ofNat n).length := by
  have hn := (length_ofNat_le_iff (length_ofNat_pos n)).1 (Nat.le_refl _)
  exact (length_ofNat_le_iff (length_ofNat_pos n)).2 (Nat.lt_of_le_of_lt h hn)

/-- Nothing but digits stands in a number. -/
theorem not_mem_ofNat {b : UInt8} (h : isDigit b = false) (n : Nat) : b ∉ ofNat n := by
  intro hmem
  rw [isDigit_of_mem_ofNat hmem] at h
  exact absurd h (by decide)

/-- Nothing but digits and a minus sign stands in a number with its sign. -/
theorem not_mem_ofInt {b : UInt8} (h : isDigit b = false) (hminus : b ≠ 0x2d) (n : Int) :
    b ∉ ofInt n := by
  rw [ofInt]
  split
  · exact List.not_mem_cons_of_ne_of_not_mem hminus (not_mem_ofNat h _)
  · exact not_mem_ofNat h _

theorem ofInt_natCast (n : Nat) : ofInt n = ofNat n := if_neg (by omega)

/-! ## Padding -/

theorem length_spaces (n : Nat) : (spaces n).length = n := List.length_replicate

/-- What is no wider than its column is padded to just that. -/
theorem length_padLeft {n : Nat} {s : Bytes} (h : s.length ≤ n) : (padLeft n s).length = n := by
  rw [padLeft, List.length_append, length_spaces, Nat.sub_add_cancel h]

end Bytes

end BraceBalance
