import BraceBalance.Pretty.Column
import BraceBalance.Proofs.Pretty.Indent
import BraceBalance.Proofs.Report.Marks
import BraceBalance.Proofs.Word

/-!
# Proofs/Pretty/Words — columns and indents, counted in words

The screen column of a character and the common indent of lines, each computed by loops that count
in words and read and cut lists at what they counted.  A column grows by a tab at most with each
character, so that it fits into a word for any line that memory has room for (`FitsMemory`); then both
loops go through and give what `Column.visual` and `Indent.common` say.
-/

namespace BraceBalance

/-- Lines as they can lie in memory.  No address is as long as 60 bits. -/
structure FitsMemory (lines : List Bytes) : Prop where
  count : lines.length < 2 ^ 60
  line : ∀ line ∈ lines, line.length < 2 ^ 60

namespace Column

theorem advance_le (column : Nat) (c : Char) : advance column c ≤ column + tabWidth := by
  rw [advance, tabWidth]
  split_ifs <;> omega

/-- Characters lead to the right by a tab each at most. -/
theorem foldl_advance_le (cs : List Char) (column : Nat) :
    cs.foldl advance column ≤ column + tabWidth * cs.length := by
  induction cs generalizing column with
  | nil => exact Nat.le_refl column
  | cons c cs ih =>
    have hstep := advance_le column c
    have hrest := ih (advance column c)
    rw [List.foldl_cons, List.length_cons, Nat.mul_succ]
    omega

/-- No column of a line is further right than a tab for each of its bytes. -/
theorem visual_le (line : Bytes) (column : Int) : visual line column ≤ tabWidth * line.length := by
  have hbefore : (before line column).length ≤ line.length := by
    have hdecode := Utf8.length_decode_le line
    rw [before]
    split_ifs
    · exact Nat.zero_le _
    · exact hdecode
    · exact Nat.le_trans (List.length_take_le' _ _) hdecode
  have hwidth := foldl_advance_le (before line column) 0
  rw [visual, width]
  exact Nat.le_trans hwidth (by rw [Nat.zero_add]; exact Nat.mul_le_mul_left _ hbefore)

end Column

namespace Bytes

/-- An indent and what is left of its line once that is trimmed make up the line. -/
theorem indent_append (s : Bytes) :
    s.indent ++ Utf8.join ((Utf8.glyphs s).dropWhile (isBlank ·.char)) = s := by
  rw [indent, Utf8.join, Utf8.join, ← List.flatMap_append, List.takeWhile_append_dropWhile]
  exact Utf8.join_glyphs s

end Bytes

namespace Indent

theorem shared_self (as : List Char) : shared as as = as := by
  induction as with
  | nil => rfl
  | cons a as ih => rw [shared, if_pos rfl, ih]

/-- What two runs share is no longer than the first. -/
theorem length_shared_le (as bs : List Char) : (shared as bs).length ≤ as.length :=
  (prefix_shared_iff.1 List.prefix_rfl).1.length_le

theorem foldl_shared_nil (indents : List (List Char)) : indents.foldl shared [] = [] := by
  induction indents with
  | nil => rfl
  | cons as indents ih => exact ih

end Indent

namespace Checked

/-! ## Columns

The number of a character is compared and not looked up, so it may be any; only the columns are
added up. -/

/-- The column after a character that starts at `column`. -/
def advance (column : Int) (c : Char) : Checked Int :=
  if c = '\t' then do
    let step ← word (Column.tabWidth - column % Column.tabWidth)
    word (column + step)
  else word (column + 1)

/-- The column of the character with a number, given that `i` characters take up the columns up to
`column`; if no character has the number, the column behind the last. -/
def columnFrom (number i column : Int) : List Char → Checked Int
  | [] => .ok column
  | c :: cs => do
    let i ← word (i + 1)
    if i = number then return column
    let column ← advance column c
    columnFrom number i column cs

/-- The screen column, counted from zero, of a character of a line. -/
def column (line : Bytes) (number : Int) : Checked Int :=
  if number < 0 then .ok 0 else columnFrom number 0 0 (Utf8.decode line)

/-- One character leads to the same column as without checks, while there is room for a tab. -/
theorem advance_eq {column : Nat} (h : column + 8 < 2 ^ 63) (c : Char) :
    advance column c = .ok (Column.advance column c) := by
  have hcast : (Column.tabWidth - (column : Int) % Column.tabWidth) =
      (Column.tabWidth - column % Column.tabWidth : Nat) := by
    simp only [Column.tabWidth]
    omega
  rw [advance, Column.advance]
  split_ifs
  · rw [hcast]
    refine bind_ok (word_eq ?_) (word_eq ?_)
    · simp only [IsWord, Column.tabWidth]
      omega
    · simp only [IsWord, Column.tabWidth]
      omega
  · exact word_eq (by simp only [IsWord]; omega)

/-- **The loop over the characters of a line goes through**, as long as there is room in a word for
as many tabs as there are characters. -/
theorem columnFrom_eq (number : Int) {cs : List Char} {i column : Nat}
    (hi : i + cs.length < 2 ^ 63) (hcolumn : column + 8 * cs.length < 2 ^ 63) :
    columnFrom number i column cs =
      .ok (((if number ≤ i then cs else cs.take (number.toNat - i - 1)).foldl Column.advance
        column : Nat)) := by
  induction cs generalizing i column with
  | nil =>
    rw [columnFrom, List.take_nil, ite_self]
    rfl
  | cons c cs ih =>
    rw [List.length_cons] at hi hcolumn
    have hstep := Column.advance_le column c
    rw [Column.tabWidth] at hstep
    have hrest := @ih (i + 1) (Column.advance column c) (by omega) (by omega)
    refine bind_ok (word_eq ⟨by omega, by omega⟩) ?_
    by_cases hnumber : (i : Int) + 1 = number
    · -- The character has the number, so no other is passed.
      have hnone : number.toNat - i - 1 = 0 := by omega
      rw [if_pos hnumber, if_neg (by omega), hnone]
      rfl
    · rw [if_neg hnumber]
      refine bind_ok (advance_eq (by omega) c) (hrest.trans ?_)
      by_cases hle : number ≤ i
      · rw [if_pos hle, if_pos (by omega), List.foldl_cons]
      · have htake : number.toNat - i - 1 = number.toNat - (i + 1) - 1 + 1 := by omega
        rw [if_neg hle, if_neg (by omega), htake, List.take_succ_cons, List.foldl_cons]

/-- The column of any character, whatever its number, is found without a fault. -/
theorem column_eq {line : Bytes} (h : line.length < 2 ^ 60) (number : Int) :
    column line number = .ok (Column.visual line number) := by
  have hdecode := Utf8.length_decode_le line
  rw [column, Column.visual, Column.before]
  by_cases hneg : number < 0
  · rw [if_pos hneg, if_pos hneg]
    rfl
  · have hloop := @columnFrom_eq number (Utf8.decode line) 0 0 (by omega) (by omega)
    rw [if_neg hneg, if_neg hneg]
    refine hloop.trans ?_
    by_cases hzero : number = 0
    · rw [if_pos hzero, if_pos (by omega), Column.width]
    · rw [if_neg hzero, if_neg (by omega), Column.width, Nat.sub_zero]

/-! ## Indents -/

/-- The indent of a line: as much of it as is missing once it is trimmed. -/
def indent (line : Bytes) : Checked Bytes := do
  let trimmed := Utf8.join ((Utf8.glyphs line).dropWhile (isBlank ·.char))
  let length ← word (line.length - trimmed.length)
  part line 0 length

/-- What two runs of characters share, given that their first `i` characters agree and that
`left` more are to be compared. -/
def sharedFrom (as bs : List Char) (i : Int) : Nat → Checked (List Char)
  | 0 => part as 0 i
  | left + 1 => do
    let a ← get as i
    let b ← get bs i
    if a = b then
      let i ← word (i + 1)
      sharedFrom as bs i left
    else part as 0 i

/-- What `first` shares with the indents of all lines but blank ones. -/
def sharedByAll (first : List Char) : List Bytes → Checked (List Char)
  | [] => .ok first
  | line :: lines =>
    if line.isBlankThroughout then sharedByAll first lines
    else do
      let next := Utf8.decode (← indent line)
      let first ← sharedFrom first next 0 (min first.length next.length)
      if first = [] then return [] else sharedByAll first lines

/-- The indent lines have in common: what that of the first line that is not blank shares with
all. -/
def commonIndent (lines : List Bytes) : Checked Bytes :=
  match lines.find? (!·.isBlankThroughout) with
  | none => .ok []
  | some line => do
    let first := Utf8.decode (← indent line)
    if first = [] then return []
    return Utf8.encode (← sharedByAll first lines)

/-- The indent of a line is found without a fault. -/
theorem indent_eq {line : Bytes} (h : line.length < 2 ^ 60) : indent line = .ok line.indent := by
  have hsplit := line.indent_append
  have hprefix : line.indent <+: line := ⟨_, hsplit⟩
  have hle := hprefix.length_le
  rw [indent]
  generalize Utf8.join ((Utf8.glyphs line).dropWhile (isBlank ·.char)) = trimmed at hsplit
  have hlength : (line.length : Int) - trimmed.length = line.indent.length := by
    rw [← congrArg List.length hsplit, List.length_append]
    omega
  rw [hlength]
  refine bind_ok (word_eq ⟨by omega, by omega⟩) ?_
  rw [part_zero hle, ← List.prefix_iff_eq_take.1 hprefix]

/-- **The loop over two runs of characters goes through**: it reads both of them only as far as the
shorter one goes. -/
theorem sharedFrom_eq {as bs : List Char} (h : as.length < 2 ^ 60) {i left : Nat}
    (hleft : i + left = min as.length bs.length) :
    sharedFrom as bs i left = .ok (as.take i ++ Indent.shared (as.drop i) (bs.drop i)) := by
  induction left generalizing i with
  | zero =>
    obtain ⟨has, hbs⟩ := Indent.prefix_shared_iff.1
      (List.prefix_refl (Indent.shared (as.drop i) (bs.drop i)))
    have hend : as.drop i = [] ∨ bs.drop i = [] := by
      rw [List.drop_eq_nil_iff, List.drop_eq_nil_iff]
      omega
    have hnil : Indent.shared (as.drop i) (bs.drop i) = [] := by
      rcases hend with hend | hend
      · exact List.prefix_nil.1 (hend ▸ has)
      · exact List.prefix_nil.1 (hend ▸ hbs)
    rw [sharedFrom, part_zero (by omega), hnil, List.append_nil]
  | succ left ih =>
    have ha : i < as.length := by omega
    have hb : i < bs.length := by omega
    refine bind_ok (get_eq (Int.natCast_nonneg i) (List.getElem?_eq_getElem ha)) ?_
    refine bind_ok (get_eq (Int.natCast_nonneg i) (List.getElem?_eq_getElem hb)) ?_
    rw [List.drop_eq_getElem_cons ha, List.drop_eq_getElem_cons hb, Indent.shared]
    by_cases heq : as[i] = bs[i]
    · have hrest := @ih (i + 1) (by omega)
      rw [if_pos heq, if_pos heq]
      refine bind_ok (word_eq ⟨by omega, by omega⟩) ?_
      rw [List.take_succ_eq_append_getElem ha, List.append_assoc] at hrest
      exact hrest
    · rw [if_neg heq, if_neg heq, List.append_nil, part_zero (Nat.le_of_lt ha)]

/-- What the indents of all lines share is found without a fault. -/
theorem sharedByAll_eq {lines : List Bytes} (h : ∀ line ∈ lines, line.length < 2 ^ 60)
    {first : List Char} (hfirst : first.length < 2 ^ 60) :
    sharedByAll first lines =
      .ok (((lines.filter (!·.isBlankThroughout)).map fun line =>
        Utf8.decode line.indent).foldl Indent.shared first) := by
  induction lines generalizing first with
  | nil => rfl
  | cons line lines ih =>
    obtain ⟨hline, hlines⟩ := List.forall_mem_cons.1 h
    rw [sharedByAll]
    by_cases hblank : line.isBlankThroughout = true
    · rw [if_pos hblank, List.filter_cons_of_neg (by simpa using hblank), ih hlines hfirst]
    · rw [if_neg hblank, List.filter_cons_of_pos (by simpa using hblank), List.map_cons,
        List.foldl_cons]
      refine bind_ok (indent_eq hline) ?_
      have hshared := @sharedFrom_eq first (Utf8.decode line.indent) hfirst 0 _ (Nat.zero_add _)
      refine bind_ok hshared ?_
      rw [List.take_zero, List.nil_append, List.drop_zero, List.drop_zero]
      split_ifs with hnil
      · rw [hnil, Indent.foldl_shared_nil]
        rfl
      · exact ih hlines (Nat.lt_of_le_of_lt (Indent.length_shared_le _ _) hfirst)

/-- **The common indent of lines is found without a fault.** -/
theorem commonIndent_eq {lines : List Bytes} (h : ∀ line ∈ lines, line.length < 2 ^ 60) :
    commonIndent lines = .ok (Indent.common lines) := by
  rw [commonIndent, ← List.head?_filter, Indent.common]
  rcases hsolid : lines.filter (!·.isBlankThroughout) with _ | ⟨line, rest⟩
  · rw [hsolid]
    rfl
  · rw [hsolid, List.map_cons]
    have hmem : line ∈ lines := (List.mem_filter.1 (hsolid ▸ List.mem_cons_self)).1
    have hline := h line hmem
    have hprefix : line.indent <+: line := ⟨_, line.indent_append⟩
    have hfirst : (Utf8.decode line.indent).length < 2 ^ 60 :=
      Nat.lt_of_le_of_lt (Nat.le_trans (Utf8.length_decode_le _) hprefix.length_le) hline
    refine bind_ok (indent_eq hline) ?_
    have hall := sharedByAll_eq h hfirst
    rw [hsolid, List.map_cons, List.foldl_cons, Indent.shared_self] at hall
    dsimp only
    split_ifs with hnil
    · rw [hnil, Indent.foldl_shared_nil]
      rfl
    · exact bind_ok hall rfl

end Checked

end BraceBalance
