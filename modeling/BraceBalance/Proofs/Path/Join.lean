import BraceBalance.Path.Lexical
import BraceBalance.Proofs.Text.Pieces
import Mathlib.Data.List.Basic
import Mathlib.Data.List.TakeWhile
import Mathlib.Tactic.SplitIfs

/-!
# Proofs/Path/Join — joined paths tell their names

A path comes to whether it starts at the root and to the names that are left once `.` and `..` have
been worked off (`Path.kept`).  Joining a name adds it behind these (`Path.kept_join`), however the
directory is spelled, so paths that are joined from one root by different names are different, and
each ends in the last of its names (`Path.exists_foldl_join_concat`).
-/

namespace BraceBalance

namespace Path

/-! ## Names -/

/-- What can stand between two separators. -/
structure Piece (s : Bytes) : Prop where
  ne_nil : s ≠ []
  whole : separator ∉ s

/-- A name that leads on from a directory to something in it. -/
structure IsName (name : Bytes) : Prop extends Piece name where
  ne_here : name ≠ here
  ne_above : name ≠ above

instance (name : Bytes) : Decidable (IsName name) :=
  decidable_of_iff ((name ≠ [] ∧ separator ∉ name) ∧ name ≠ here ∧ name ≠ above)
    ⟨fun h => ⟨⟨h.1.1, h.1.2⟩, h.2.1, h.2.2⟩,
      fun h => ⟨⟨h.ne_nil, h.whole⟩, h.ne_here, h.ne_above⟩⟩

/-- The names of two paths with a separator between them are those of both. -/
theorem names_append_cons (s t : Bytes) : names (s ++ separator :: t) = names s ++ names t := by
  rw [names, Bytes.splitOn_append_cons, List.filter_append]
  rfl

/-- What stands between two separators is one name. -/
theorem Piece.names_eq {s : Bytes} (h : Piece s) : names s = [s] := by
  rw [names, Bytes.splitOn_of_not_mem h.whole]
  exact List.filter_cons_of_pos (decide_eq_true h.ne_nil)

/-- Every name of a path can stand between two separators. -/
theorem piece_of_mem_names {path name : Bytes} (h : name ∈ names path) : Piece name := by
  obtain ⟨hmem, hne⟩ := List.mem_filter.1 h
  exact ⟨of_decide_eq_true hne, Bytes.not_mem_of_mem_splitOn hmem⟩

theorem piece_above : Piece above := ⟨by decide, by decide⟩

/-- A path has no more names than bytes. -/
theorem length_names_le (path : Bytes) : (names path).length ≤ path.length := by
  rw [names]
  induction path with
  | nil => exact Nat.le_refl 0
  | cons b path ih =>
    rw [Bytes.splitOn, List.length_cons]
    split_ifs
    · exact Nat.le_succ_of_le ih
    · rcases hsplit : Bytes.splitOn separator path with _ | ⟨word, words⟩
      · exact absurd hsplit (Bytes.splitOn_ne_nil _ path)
      · rw [hsplit] at ih
        have hless : (words.filter (· ≠ [])).length ≤ ((word :: words).filter (· ≠ [])).length :=
          ((List.sublist_cons_self word words).filter _).length_le
        rw [List.filter_cons_of_pos (by simp), List.length_cons]
        exact Nat.succ_le_succ (hless.trans ih)

/-- Names that are joined by separators are the names of the path. -/
theorem names_joinWith {ns : List Bytes} (h : ∀ n ∈ ns, Piece n) :
    names (Bytes.joinWith [separator] ns) = ns := by
  induction ns with
  | nil => rfl
  | cons n ns ih =>
    obtain ⟨hn, hns⟩ := List.forall_mem_cons.1 h
    rcases ns with _ | ⟨m, ns⟩
    · rw [Bytes.joinWith, List.intercalate_singleton, hn.names_eq]
    · rw [Bytes.joinWith_cons_cons, names_append_cons, ih hns, hn.names_eq]
      rfl

/-! ## Names once `.` and `..` are worked off

The names kept so far are `Tidy` at every step: working them off again would change nothing. -/

/-- The names of a path that are left once `.` and `..` are worked off. -/
def kept (path : Bytes) : List Bytes := ((names path).foldl (keep (rooted path)) []).reverse

theorem clean_eq_spell (path : Bytes) : clean path = spell (rooted path) (kept path) := rfl

theorem keep_here (fromRoot : Bool) (ns : List Bytes) : keep fromRoot ns here = ns := if_pos rfl

theorem keep_above_cons (fromRoot : Bool) (last : Bytes) (ns : List Bytes) :
    keep fromRoot (last :: ns) above = if last = above then above :: last :: ns else ns :=
  (if_neg (by decide)).trans (if_pos rfl)

/-- A name that leads on is kept. -/
theorem keep_of_ne {name : Bytes} (hhere : name ≠ here) (habove : name ≠ above) (fromRoot : Bool)
    (ns : List Bytes) : keep fromRoot ns name = name :: ns :=
  (if_neg hhere).trans (if_neg habove)

/-- Names that working off `.` and `..` leaves as they are; the last first. -/
structure Tidy (fromRoot : Bool) (ns : List Bytes) : Prop where
  fixed : ns.reverse.foldl (keep fromRoot) [] = ns
  ne_here : here ∉ ns

theorem foldl_keep_cons (fromRoot : Bool) (ns : List Bytes) (name : Bytes) :
    (name :: ns).reverse.foldl (keep fromRoot) [] =
      keep fromRoot (ns.reverse.foldl (keep fromRoot) []) name := by
  rw [List.reverse_cons, List.foldl_append]
  rfl

/-- Working off one more name leaves names that are worked off. -/
theorem Tidy.keep {fromRoot : Bool} {ns : List Bytes} (h : Tidy fromRoot ns) (name : Bytes) :
    Tidy fromRoot (Path.keep fromRoot ns name) := by
  have hadd : ∀ n, n ≠ here → Path.keep fromRoot ns n = n :: ns → Tidy fromRoot (n :: ns) := by
    intro n hn hkeep
    refine ⟨by rw [foldl_keep_cons, h.fixed, hkeep], fun hmem => ?_⟩
    exact (List.mem_cons.1 hmem).elim (fun heq => hn heq.symm) h.ne_here
  by_cases hhere : name = here
  · rw [hhere, keep_here]
    exact h
  by_cases habove : name = above
  · subst habove
    rcases ns with _ | ⟨last, ns⟩
    · rcases fromRoot with _ | _
      · exact hadd above hhere rfl
      · exact ⟨rfl, List.not_mem_nil⟩
    · have hkeep := keep_above_cons fromRoot last ns
      by_cases hlast : last = above
      · rw [if_pos hlast] at hkeep
        rw [hkeep]
        exact hadd above hhere hkeep
      · -- `..` takes back a name that had been added to names worked off already.
        rw [if_neg hlast] at hkeep
        have hlast_here : last ≠ here := fun heq => h.ne_here (heq ▸ List.mem_cons_self)
        have hfixed := h.fixed
        rw [foldl_keep_cons, keep_of_ne hlast_here hlast] at hfixed
        rw [hkeep]
        exact ⟨(List.cons.inj hfixed).2, fun hmem => h.ne_here (List.mem_cons_of_mem _ hmem)⟩
  · have hkeep := keep_of_ne hhere habove fromRoot ns
    rw [hkeep]
    exact hadd name hhere hkeep

/-- Working off any number of names leaves names that are worked off. -/
theorem tidy_foldl_keep (fromRoot : Bool) (ns : List Bytes) {start : List Bytes}
    (h : Tidy fromRoot start) : Tidy fromRoot (ns.foldl (keep fromRoot) start) := by
  induction ns generalizing start with
  | nil => exact h
  | cons n ns ih => exact ih (h.keep n)

/-- Working off the names that are left of a path changes nothing. -/
theorem foldl_keep_kept (path : Bytes) :
    (kept path).foldl (keep (rooted path)) [] = (kept path).reverse := by
  have htidy : Tidy (rooted path) ((names path).foldl (keep (rooted path)) []) :=
    tidy_foldl_keep _ _ ⟨rfl, List.not_mem_nil⟩
  rw [kept, htidy.fixed, List.reverse_reverse]

theorem mem_keep {fromRoot : Bool} {ns : List Bytes} {name n : Bytes}
    (h : n ∈ keep fromRoot ns name) : n ∈ ns ∨ n = name ∨ n = above := by
  by_cases hhere : name = here
  · rw [hhere, keep_here] at h
    exact .inl h
  by_cases habove : name = above
  · subst habove
    rcases ns with _ | ⟨last, ns⟩
    · rcases fromRoot with _ | _
      · exact .inr (.inr (List.mem_singleton.1 h))
      · exact absurd h List.not_mem_nil
    · rw [keep_above_cons] at h
      split_ifs at h with hlast
      · exact (List.mem_cons.1 h).elim (fun heq => .inr (.inr heq)) .inl
      · exact .inl (List.mem_cons_of_mem _ h)
  · rw [keep_of_ne hhere habove] at h
    exact (List.mem_cons.1 h).elim (fun heq => .inr (.inl heq)) .inl

/-- What is left of a path are names of it and `..`. -/
theorem mem_names_or_eq_above {path n : Bytes} (h : n ∈ kept path) :
    n ∈ names path ∨ n = above := by
  suffices hall : ∀ ns start : List Bytes, n ∈ ns.foldl (keep (rooted path)) start →
      n ∈ start ∨ n ∈ ns ∨ n = above from
    (hall _ [] (List.mem_reverse.1 h)).resolve_left List.not_mem_nil
  intro ns
  induction ns with
  | nil => exact fun start hstart => .inl hstart
  | cons m ns ih =>
    intro start hn
    rcases ih _ hn with hn | hn | hn
    · exact (mem_keep hn).imp_right (Or.imp_left fun heq : n = m => heq ▸ List.mem_cons_self)
    · exact .inr (.inl (List.mem_cons_of_mem m hn))
    · exact .inr (.inr hn)

/-- Every name that is left of a path can stand between two separators. -/
theorem piece_of_mem_kept {path n : Bytes} (h : n ∈ kept path) : Piece n := by
  obtain h | rfl := mem_names_or_eq_above h
  · exact piece_of_mem_names h
  · exact piece_above

/-! ## Spelling -/

theorem joinWith_cons (n : Bytes) (ns : List Bytes) :
    ∃ rest, Bytes.joinWith [separator] (n :: ns) = n ++ rest := by
  rcases ns with _ | ⟨m, ns⟩
  · exact ⟨[], by rw [Bytes.joinWith, List.intercalate_singleton, List.append_nil]⟩
  · exact ⟨_, Bytes.joinWith_cons_cons n m ns⟩

/-- Whether a path starts at the root is told by its first byte. -/
theorem rooted_append {s : Bytes} (hne : s ≠ []) (t : Bytes) : rooted (s ++ t) = rooted s := by
  obtain ⟨b, s, rfl⟩ := List.exists_cons_of_ne_nil hne
  rfl

theorem Piece.rooted_eq {s : Bytes} (h : Piece s) : rooted s = false := by
  refine beq_eq_false_iff_ne.2 fun hhead => ?_
  exact h.whole (List.mem_of_mem_head? hhead)

/-- A spelling tells whether it starts at the root, and the names it spells. -/
theorem rooted_names_spell (fromRoot : Bool) {ns : List Bytes} (h : ∀ n ∈ ns, Piece n)
    (hne : ns ≠ []) :
    rooted (spell fromRoot ns) = fromRoot ∧ names (spell fromRoot ns) = ns := by
  obtain ⟨n, ns, rfl⟩ := List.exists_cons_of_ne_nil hne
  have hn := h n List.mem_cons_self
  obtain ⟨rest, hjoin⟩ := joinWith_cons n ns
  rcases fromRoot with _ | _
  · have hspell : spell false (n :: ns) = Bytes.joinWith [separator] (n :: ns) := by
      rw [spell, if_neg Bool.false_ne_true, if_neg]
      rw [hjoin]
      exact List.append_ne_nil_of_left_ne_nil hn.ne_nil rest
    rw [hspell]
    exact ⟨by rw [hjoin, rooted_append hn.ne_nil, hn.rooted_eq], names_joinWith h⟩
  · rw [spell, if_pos rfl]
    have hnames := names_append_cons [] (Bytes.joinWith [separator] (n :: ns))
    rw [names_joinWith h] at hnames
    exact ⟨rfl, hnames⟩

/-! ## Joining

A path is told by where it starts and by the names that are left of it, and joining touches only the
latter. -/

section

variable {name : Bytes} (hname : IsName name) (dir : Bytes)

include hname

theorem foldl_keep_append (fromRoot : Bool) (ns : List Bytes) :
    (ns ++ [name]).foldl (keep fromRoot) [] = name :: ns.foldl (keep fromRoot) [] := by
  rw [List.foldl_append]
  exact keep_of_ne hname.ne_here hname.ne_above fromRoot _

/-- A name that is joined to a directory is spelled behind the names that are left of it. -/
theorem join_eq_spell : join dir name = spell (rooted dir) (kept dir ++ [name]) := by
  by_cases hdir : dir = []
  · have hkept : kept name = [name] := by
      rw [kept, hname.names_eq]
      exact congrArg List.reverse (foldl_keep_append hname _ [])
    rw [join, if_pos hdir, if_neg hname.ne_nil, clean_eq_spell, hname.rooted_eq, hkept, hdir]
    rfl
  · have hrooted : rooted (dir ++ [separator] ++ name) = rooted dir := by
      rw [List.append_assoc, rooted_append hdir]
    have hnames : names (dir ++ [separator] ++ name) = names dir ++ [name] := by
      rw [List.append_assoc]
      exact (names_append_cons dir name).trans (by rw [hname.names_eq])
    rw [join, if_neg hdir, clean_eq_spell, hrooted, kept, hrooted, hnames,
      foldl_keep_append hname, List.reverse_cons]
    rfl

/-- **Joining a name adds it behind the names that are left of the directory.** -/
theorem rooted_kept_join :
    rooted (join dir name) = rooted dir ∧ kept (join dir name) = kept dir ++ [name] := by
  have hpieces : ∀ n ∈ kept dir ++ [name], Piece n := by
    intro n hn
    rcases List.mem_append.1 hn with hn | hn
    · exact piece_of_mem_kept hn
    · exact List.mem_singleton.1 hn ▸ hname.toPiece
  obtain ⟨hrooted, hnames⟩ := rooted_names_spell (rooted dir) hpieces (by simp)
  rw [join_eq_spell hname]
  refine ⟨hrooted, ?_⟩
  calc kept (spell (rooted dir) (kept dir ++ [name]))
      = ((kept dir ++ [name]).foldl (keep (rooted dir)) []).reverse := by
        rw [kept, hrooted, hnames]
    _ = (name :: (kept dir).reverse).reverse := by
        rw [foldl_keep_append hname, foldl_keep_kept]
    _ = kept dir ++ [name] := by
        rw [List.reverse_cons, List.reverse_reverse]

/-- A path that was joined is spelled as short as can be. -/
theorem clean_join : clean (join dir name) = join dir name := by
  rw [clean_eq_spell, (rooted_kept_join hname dir).1, (rooted_kept_join hname dir).2,
    ← join_eq_spell hname]

end

/-- Names that are joined to a root one by one stand behind those that are left of it. -/
theorem kept_foldl_join {ns : List Bytes} (h : ∀ n ∈ ns, IsName n) (root : Bytes) :
    kept (ns.foldl join root) = kept root ++ ns := by
  induction ns generalizing root with
  | nil => exact (List.append_nil _).symm
  | cons n ns ih =>
    obtain ⟨hn, hns⟩ := List.forall_mem_cons.1 h
    rw [List.foldl_cons, ih hns, (rooted_kept_join hn root).2, List.append_assoc]
    rfl

/-- **Different names lead to different paths**, however the root is spelled. -/
theorem eq_of_foldl_join_eq {ns ms : List Bytes} (hns : ∀ n ∈ ns, IsName n)
    (hms : ∀ m ∈ ms, IsName m) {root : Bytes} (h : ns.foldl join root = ms.foldl join root) :
    ns = ms := by
  have hkept := congrArg kept h
  rw [kept_foldl_join hns, kept_foldl_join hms] at hkept
  exact List.append_cancel_left hkept

/-! ## The last name

A path that is joined by a name ends in it, and what stands before it is nothing or ends in a
separator. -/

/-- What may stand before the last name of a path. -/
def Leading (front : Bytes) : Prop := front = [] ∨ ∃ dir, front = dir ++ [separator]

theorem leading_append_separator (dir : Bytes) : Leading (dir ++ [separator]) := .inr ⟨dir, rfl⟩

/-- A directory may stand before what may stand before a name. -/
theorem Leading.behind {front : Bytes} (h : Leading front) (dir : Bytes) :
    Leading (dir ++ [separator] ++ front) := by
  rcases h with rfl | ⟨inner, rfl⟩
  · exact (List.append_nil _).symm ▸ leading_append_separator dir
  · exact .inr ⟨dir ++ [separator] ++ inner, (List.append_assoc ..).symm⟩

theorem exists_joinWith_concat (ns : List Bytes) (name : Bytes) :
    ∃ front, Leading front ∧ Bytes.joinWith [separator] (ns ++ [name]) = front ++ name := by
  induction ns with
  | nil => exact ⟨[], .inl rfl, List.intercalate_singleton⟩
  | cons n ns ih =>
    obtain ⟨front, hfront, hjoin⟩ := ih
    obtain ⟨m, more, hmore⟩ := List.exists_cons_of_ne_nil (List.concat_ne_nil name ns)
    refine ⟨n ++ [separator] ++ front, hfront.behind n, ?_⟩
    rw [List.cons_append, hmore, Bytes.joinWith, List.intercalate_cons_cons, ← hmore,
      ← Bytes.joinWith, hjoin, ← List.append_assoc]

/-- A spelling ends in the last name, with nothing or a separator before it. -/
theorem exists_spell_concat (fromRoot : Bool) (ns : List Bytes) {name : Bytes} (hname : name ≠ []) :
    ∃ front, Leading front ∧ spell fromRoot (ns ++ [name]) = front ++ name := by
  obtain ⟨front, hfront, hjoin⟩ := exists_joinWith_concat ns name
  rw [spell, hjoin]
  rcases fromRoot with _ | _
  · refine ⟨front, hfront, ?_⟩
    rw [if_neg Bool.false_ne_true, if_neg (List.append_ne_nil_of_right_ne_nil front hname)]
  · exact ⟨separator :: front, hfront.behind [], if_pos rfl⟩

section

variable {front name : Bytes}

/-- The extension of a path is that of its last name. -/
theorem Piece.extension_append (hname : Piece name) (hfront : Leading front) :
    extension (front ++ name) = extension name := by
  have hall : ∀ b ∈ name.reverse, decide (b ≠ separator) = true := by
    intro b hb
    rw [decide_eq_true_iff]
    rintro rfl
    exact hname.whole (List.mem_reverse.1 hb)
  have hstop : front.reverse.takeWhile (· ≠ separator) = [] := by
    rcases hfront with rfl | ⟨dir, rfl⟩
    · rfl
    · rw [List.reverse_append]
      exact List.takeWhile_cons_of_neg (by simp)
  rw [extension, extension, List.reverse_append, List.takeWhile_append_of_pos hall, hstop,
    List.append_nil, List.takeWhile_eq_self_iff.2 hall]

theorem Piece.trailing_append (hname : Piece name) (front : Bytes) :
    trailing (front ++ name) = false := by
  rw [trailing, List.getLast?_append, List.getLast?_eq_some_getLast hname.ne_nil, Option.some_or]
  refine beq_eq_false_iff_ne.2 fun hlast => hname.whole ?_
  exact Option.some.inj hlast ▸ List.getLast_mem hname.ne_nil

end

/-- A path starts where the root starts to which it is joined. -/
theorem rooted_foldl_join {ns : List Bytes} (h : ∀ n ∈ ns, IsName n) (root : Bytes) :
    rooted (ns.foldl join root) = rooted root := by
  induction ns generalizing root with
  | nil => rfl
  | cons n ns ih =>
    obtain ⟨hn, hns⟩ := List.forall_mem_cons.1 h
    rw [List.foldl_cons, ih hns, (rooted_kept_join hn root).1]

/-- A path joined by names is spelled by those that are left of the root, and then by these. -/
theorem foldl_join_eq_spell {ns : List Bytes} (h : ∀ n ∈ ns, IsName n) (hne : ns ≠ [])
    (root : Bytes) : ns.foldl join root = spell (rooted root) (kept root ++ ns) := by
  rcases ns.eq_nil_or_concat' with rfl | ⟨ns, name, rfl⟩
  · exact absurd rfl hne
  · obtain ⟨hns, hname⟩ := List.forall_mem_append.1 h
    rw [List.foldl_append, List.foldl_cons, List.foldl_nil,
      join_eq_spell (hname name List.mem_cons_self), rooted_foldl_join hns, kept_foldl_join hns,
      List.append_assoc]

/-- A path that is joined by names ends in the last of them. -/
theorem exists_foldl_join_concat {ns : List Bytes} {name : Bytes}
    (h : ∀ n ∈ ns ++ [name], IsName n) (root : Bytes) :
    ∃ front, Leading front ∧ (ns ++ [name]).foldl join root = front ++ name := by
  have hname := h name (List.mem_append_right _ List.mem_cons_self)
  rw [foldl_join_eq_spell h (by simp), ← List.append_assoc]
  exact exists_spell_concat _ _ hname.ne_nil

end Path

end BraceBalance
