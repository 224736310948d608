import BraceBalance.Cache.Record
import BraceBalance.Proofs.Text.Decimal
import Mathlib.Tactic.SplitIfs

/-!
# Proofs/Cache/Record — records read back

    records ──recordFields──▸ fields ──writeField──▸ file ──fields?──▸ fields ──records?──▸ records

Each arrow back undoes the one forth, with whatever is written behind still to be read: a number is
read back from its digits, a field from its length, and records field by field.  So the format is
faithful (`Records.Format.faithful_fields`), and a cache that keeps its records in it may be taken
for any other.
-/

namespace BraceBalance

/-! ## Numbers

Neither a minus sign nor a colon is a digit, so that the end of a number is seen. -/

namespace Records

theorem all_isDigit_ofNat (n : Nat) : (Bytes.ofNat n).all Bytes.isDigit = true :=
  List.all_eq_true.2 fun _ => Bytes.isDigit_of_mem_ofNat

/-- A number is read from its digits. -/
@[simp] theorem int?_ofNat (n : Nat) : int? (Bytes.ofNat n) = some (n : Int) := by
  have hdigits := all_isDigit_ofNat n
  have hvalue := Bytes.digitsValue_ofNat n
  obtain ⟨b, digits, hcons⟩ := List.exists_cons_of_ne_nil (Bytes.ofNat_ne_nil n)
  have hb : b ≠ 0x2d := by
    rintro rfl
    simp [hcons, Bytes.isDigit] at hdigits
  rw [hcons] at hdigits hvalue ⊢
  rw [int?, if_neg hb, if_pos hdigits, hvalue]

/-- A number is read from its digits and the sign before them, if there is one. -/
@[simp] theorem int?_ofInt (n : Int) : int? (Bytes.ofInt n) = some n := by
  rw [Bytes.ofInt]
  split_ifs with hneg
  · have hsome : (Bytes.ofNat n.natAbs).isEmpty = false := by
      simpa using Bytes.ofNat_ne_nil n.natAbs
    have hvalue : -(n.natAbs : Int) = n := by omega
    simp only [int?, if_pos, hsome, all_isDigit_ofNat, Bytes.digitsValue_ofNat, hvalue,
      Bool.not_false, Bool.and_self]
  · have hvalue : (n.natAbs : Int) = n := by omega
    rw [int?_ofNat, hvalue]

/-! ## Fields

While a length is read a colon ends it; while a field is read nothing does but its length. -/

/-- A digit goes on with the length that is read. -/
theorem fieldsOnto_digit (done : List Bytes) {b : UInt8} (hb : Bytes.isDigit b = true)
    (value : Option Nat) (rest : Bytes) :
    fieldsOnto done (.length value) (b :: rest) =
      fieldsOnto done (.length (some (10 * value.getD 0 + (b.toNat - 0x30)))) rest := by
  cases value with
  | none => rw [fieldsOnto, if_pos hb]
  | some n => simp only [fieldsOnto, if_pos hb]

theorem fieldsOnto_digits (done : List Bytes) {digits : Bytes}
    (h : ∀ b ∈ digits, Bytes.isDigit b = true) (n : Nat) (rest : Bytes) :
    fieldsOnto done (.length (some n)) (digits ++ rest) =
      fieldsOnto done
        (.length (some (digits.foldl (fun n b => 10 * n + (b.toNat - 0x30)) n))) rest := by
  induction digits generalizing n with
  | nil => rfl
  | cons b digits ih =>
    obtain ⟨hb, hdigits⟩ := List.forall_mem_cons.1 h
    rw [List.cons_append, fieldsOnto_digit done hb, ih hdigits]
    rfl

/-- A length is read before whatever ends it. -/
theorem fieldsOnto_ofNat (done : List Bytes) (n : Nat) (rest : Bytes) :
    fieldsOnto done (.length none) (Bytes.ofNat n ++ rest) =
      fieldsOnto done (.length (some n)) rest := by
  have hdigits : ∀ b ∈ Bytes.ofNat n, Bytes.isDigit b = true := fun _ =>
    Bytes.isDigit_of_mem_ofNat
  have hvalue := Bytes.digitsValue_ofNat n
  obtain ⟨b, digits, hcons⟩ := List.exists_cons_of_ne_nil (Bytes.ofNat_ne_nil n)
  rw [hcons] at hdigits hvalue ⊢
  obtain ⟨hb, hmore⟩ := List.forall_mem_cons.1 hdigits
  rw [List.cons_append, fieldsOnto_digit done hb, fieldsOnto_digits done hmore, ← hvalue]
  rfl

/-- The rest of a field is read as far as its length goes, whatever stands behind it. -/
theorem fieldsOnto_body (done : List Bytes) {field : Bytes} (h : field ≠ []) (read rest : Bytes) :
    fieldsOnto done (.body field.length read) (field ++ rest) =
      fieldsOnto ((read.reverse ++ field) :: done) (.length none) rest := by
  induction field generalizing read with
  | nil => exact absurd rfl h
  | cons b field ih =>
    rw [List.cons_append, fieldsOnto]
    cases field with
    | nil => simp
    | cons c field =>
      rw [if_neg (by simp), List.length_cons, Nat.add_sub_cancel, ih (by simp)]
      simp

/-- One field is read before whatever stands behind it. -/
theorem fieldsOnto_writeField (done : List Bytes) (field rest : Bytes) :
    fieldsOnto done (.length none) (writeField field ++ rest) =
      fieldsOnto (field :: done) (.length none) rest := by
  rw [writeField, List.append_assoc, List.append_assoc, fieldsOnto_ofNat]
  show fieldsOnto done (.length (some field.length)) (0x3a :: (field ++ rest)) = _
  cases field with
  | nil => rfl
  | cons b field => exact fieldsOnto_body done (List.cons_ne_nil b field) [] rest

theorem fieldsOnto_flatMap_writeField (done fields : List Bytes) :
    fieldsOnto done (.length none) (fields.flatMap writeField) = some (done.reverse ++ fields) := by
  induction fields generalizing done with
  | nil => simp [fieldsOnto]
  | cons field fields ih =>
    rw [List.flatMap_cons, fieldsOnto_writeField, ih]
    simp

/-- Fields are read back one after the other. -/
@[simp] theorem fields?_flatMap_writeField (fields : List Bytes) :
    fields? (fields.flatMap writeField) = some fields :=
  fieldsOnto_flatMap_writeField [] fields

end Records

/-! ## Records

A list of openers or of records is read in the same way from any fields behind it. -/

namespace Records

/-- As many openers are read as were written. -/
theorem openers?_flatMap (os : List Opener) (rest : List Bytes) :
    openers? os.length (os.flatMap openerFields ++ rest) = some (os, rest) := by
  induction os with
  | nil => rfl
  | cons o os ih => simp [openerFields, openers?, ih]

/-- One record is read before the fields of further ones. -/
theorem records?_recordFields (name : Bytes) (r : Record) (n : Nat) (rest : List Bytes) :
    records? (n + 1) (recordFields name r ++ rest) =
      (records? n rest).map ((name, r) :: ·) := by
  have hopened := openers?_flatMap r.verdict.opened rest
  cases hrest : records? n rest with
  | none => simp [recordFields, records?, hopened, hrest]
  | some rs => simp [recordFields, records?, hopened, hrest]

/-- Records are read back one after the other, as long as enough of them may be read. -/
theorem records?_flatMap {rs : Records} {n : Nat} (hn : rs.length ≤ n) :
    records? n (rs.flatMap fun (name, r) => recordFields name r) = some rs := by
  induction rs generalizing n with
  | nil => cases n <;> rfl
  | cons e rs ih =>
    cases n with
    | zero => exact absurd hn (Nat.not_succ_le_zero _)
    | succ n =>
      rw [List.flatMap_cons, records?_recordFields e.1, ih (Nat.le_of_succ_le_succ hn)]
      rfl

/-- Every record has a field of its own, so there are no more records than fields. -/
theorem length_le_length_fields (rs : Records) :
    rs.length ≤ (rs.flatMap fun (name, r) => recordFields name r).length := by
  induction rs with
  | nil => exact Nat.zero_le _
  | cons e rs ih =>
    have hpos : 1 ≤ (recordFields e.1 e.2).length := List.length_pos_of_mem List.mem_cons_self
    rw [List.flatMap_cons, List.length_append, List.length_cons, Nat.add_comm]
    exact Nat.add_le_add hpos ih

/-- **Records written field by field are read back as they were.** -/
theorem Format.faithful_fields : Format.fields.Faithful := by
  intro rs
  change Records.decode? (Records.encode rs) = some rs
  rw [Records.decode?, Records.encode, fields?_flatMap_writeField]
  exact records?_flatMap (length_le_length_fields rs)

end Records

end BraceBalance
