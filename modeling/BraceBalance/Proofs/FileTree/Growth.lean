import BraceBalance.Proofs.FileTree.Resolution

/-!
# Proofs/FileTree/Growth — a tree that grows keeps its paths

A path that leads to a node meets nothing that is missing, so with a node put where there was none
it still leads there (`follow_set_of_missing`).  Making directories does no more than that, step by
step, so what could be read can be read as before (`read_makeDirs`).
-/

namespace BraceBalance

namespace FileTree

variable {t made : FileTree} {l : Location} {followLast : Bool}

/-- Names lead to a node, be it a link. -/
def Advance.Met : Advance → Prop
  | .arrived _ | .link _ _ _ => True
  | .missing _ _ | .stuck _ => False

/-- A node put where there was none does not stand in the way of names that lead to another. -/
theorem advance_set_of_missing (hl : t.node? l = none) (node : Node) {at_ : Location}
    {names : List Bytes} (hmet : (t.advance followLast at_ names).Met) :
    (t.set l node).advance followLast at_ names = t.advance followLast at_ names := by
  -- Whatever is met on the way stands elsewhere.
  have hkept : ∀ {other found}, t.node? other = some found →
      (t.set l node).node? other = some found := by
    intro other found hother
    have hne : other ≠ l := by
      rintro rfl
      exact Option.some_ne_none found (hother.symm.trans hl)
    rw [node?_set_of_ne t hne, hother]
  have hdir : ∀ {at_}, ¬t.node? at_ ≠ some .dir → ¬(t.set l node).node? at_ ≠ some .dir :=
    fun hat => not_not.2 (hkept (not_not.1 hat))
  fun_induction advance t followLast at_ names with
  | case1 => rfl
  | case2 | case5 | case6 | case7 => exact hmet.elim
  | case3 at_ rest hat ih => rw [advance, if_neg (hdir hat), if_pos rfl, ih hmet]
  | case4 at_ rest hat hhere ih =>
    rw [advance, if_neg (hdir hat), if_neg hhere, if_pos rfl, ih hmet]
  | case8 at_ name rest hat hhere habove hlong target hlink hend =>
    rw [advance, if_neg (hdir hat), if_neg hhere, if_neg habove, if_neg hlong, hkept hlink]
    exact if_pos hend
  | case9 at_ name rest hat hhere habove hlong target hlink hmore =>
    rw [advance, if_neg (hdir hat), if_neg hhere, if_neg habove, if_neg hlong, hkept hlink]
    exact if_neg hmore
  | case10 at_ name rest hat hhere habove hlong found hfound hsome ih =>
    rw [advance, if_neg (hdir hat), if_neg hhere, if_neg habove, if_neg hlong, hkept hsome]
    rcases found with _ | content | target
    · exact ih hmet
    · exact ih hmet
    · exact absurd rfl (hfound target)

/-- Names that lead to a node lead there when another is put where there was none. -/
theorem follow_set_of_missing (hl : t.node? l = none) (node : Node) {links : Nat} {at_ : Location}
    {names : List Bytes} {reached : Location}
    (h : t.follow followLast links at_ names = .ok (.present reached)) :
    (t.set l node).follow followLast links at_ names = .ok (.present reached) := by
  have hset : ∀ {at_ names place}, t.advance followLast at_ names = place → place.Met →
      (t.set l node).advance followLast at_ names = place := by
    rintro at_ names _ rfl hmet
    exact advance_set_of_missing hl node hmet
  fun_induction follow t followLast links at_ names with
  | case1 links at_ names place hadvance => rw [follow, hset hadvance trivial, ← h]
  | case2 | case3 | case4 => cases h
  | case5 at_ names parent target rest hadvance links ih =>
    rw [follow, hset hadvance trivial]
    exact ih h

/-- What can be read is still read when a node is put where there was none. -/
theorem read_set_of_missing (hl : t.node? l = none) (node : Node) {path content : Bytes}
    (h : t.read path = .ok content) : (t.set l node).read path = .ok content := by
  obtain ⟨reached, hplace, hfile⟩ := node?_of_read h
  have hne : reached ≠ l := by
    rintro rfl
    exact Option.some_ne_none _ (hfile.symm.trans hl)
  have hresolve : (t.set l node).resolve true path = .ok (.present reached) := by
    rw [resolve, resolveSteps] at hplace ⊢
    split_ifs at hplace ⊢
    exact follow_set_of_missing hl node hplace
  simp only [read, locate, hresolve, node?_set_of_ne t hne, hfile]

/-! ## Making directories

Each directory is made where there was nothing, so what was shown of such a node holds of every
step. -/

/-- What names report as missing is not there. -/
theorem node?_of_advance_missing {at_ parent : Location} {names : List Bytes} {name : Bytes}
    (h : t.advance followLast at_ names = .missing parent name) :
    t.node? (parent ++ [name]) = none := by
  fun_induction advance t followLast at_ names with
  | case1 | case2 | case5 | case7 | case8 | case9 => cases h
  | case3 _ _ _ ih | case4 _ _ _ _ ih | case10 _ _ _ _ _ _ _ _ _ _ ih => exact ih h
  | case6 at_ name hat hhere habove hlong hnone =>
    cases h
    exact hnone

/-- Where names end at nothing, nothing stands. -/
theorem node?_of_follow_absent {links : Nat} {at_ parent : Location} {names : List Bytes}
    {name : Bytes} (h : t.follow followLast links at_ names = .ok (.absent parent name)) :
    t.node? (parent ++ [name]) = none := by
  fun_induction follow t followLast links at_ names with
  | case1 | case3 | case4 => cases h
  | case2 links at_ names parent' name' hadvance =>
    cases h
    exact node?_of_advance_missing hadvance
  | case5 at_ names parent' target rest hadvance links ih => exact ih h

/-- A directory is made where there was nothing. -/
theorem exists_set_of_makeDir {path : Bytes} (h : t.makeDir path = .ok made) :
    ∃ l, t.node? l = none ∧ made = t.set l .dir := by
  rw [makeDir] at h
  rcases hplace : t.resolveSteps false path (Path.names path) with cause | l | ⟨parent, name⟩
  · simp [hplace] at h
  · simp [hplace] at h
  · rw [hplace] at h
    refine ⟨parent ++ [name], ?_, (Except.ok.inj h).symm⟩
    rw [resolveSteps] at hplace
    split_ifs at hplace
    exact node?_of_follow_absent hplace

/-- The last step of making directories: one is made, or was there. -/
theorem eq_or_makeDir_of_ok {parents : FileTree} {path : Bytes}
    (h : (match parents.makeDir path with
      | .ok made => .ok made
      | .error e =>
        match parents.lstat path with
        | .ok (_, .dir) => .ok parents
        | _ => .error e : Except PathError FileTree) = .ok made) :
    made = parents ∨ parents.makeDir path = .ok made := by
  split at h
  · next hmade => exact .inr (hmade.trans h)
  · split at h
    · exact .inl (Except.ok.inj h).symm
    · cases h

/-- A directory is there already, or its parents are made and then, if need be, itself. -/
theorem makeDirsWithin_cases {depth : Nat} {path : Bytes}
    (h : t.makeDirsWithin depth path = .ok made) :
    made = t ∨ ∃ parents, (made = parents ∨ parents.makeDir path = .ok made) ∧
      (parents = t ∨ ∃ less, depth = less + 1 ∧
        t.makeDirsWithin less (Path.parent path) = .ok parents) := by
  rcases depth with _ | less <;> rw [makeDirsWithin] at h <;>
    rcases hstat : t.stat path with e | _ | content | target <;> simp only [hstat] at h
  · exact .inr ⟨t, eq_or_makeDir_of_ok h, .inl rfl⟩
  · exact .inl (Except.ok.inj h).symm
  · cases h
  · cases h
  · right
    split_ifs at h
    · exact ⟨t, eq_or_makeDir_of_ok h, .inl rfl⟩
    · rcases hparents : t.makeDirsWithin less (Path.parent path) with e | parents
      · rw [hparents] at h
        cases h
      · rw [hparents] at h
        exact ⟨parents, eq_or_makeDir_of_ok h, .inr ⟨less, rfl, hparents⟩⟩
  · exact .inl (Except.ok.inj h).symm
  · cases h
  · cases h

theorem read_makeDir {path other content : Bytes} (h : t.makeDir path = .ok made)
    (hread : t.read other = .ok content) : made.read other = .ok content := by
  obtain ⟨l, hl, rfl⟩ := exists_set_of_makeDir h
  exact read_set_of_missing hl .dir hread

/-- Making a directory and its parents leaves all that can be read. -/
theorem read_makeDirsWithin {depth : Nat} {path other content : Bytes}
    (h : t.makeDirsWithin depth path = .ok made) (hread : t.read other = .ok content) :
    made.read other = .ok content := by
  induction depth using Nat.strongRecOn generalizing made path with
  | _ depth ih =>
    rcases makeDirsWithin_cases h with rfl | ⟨parents, hlast, hparents⟩
    · exact hread
    have hkept : parents.read other = .ok content := by
      rcases hparents with rfl | ⟨less, rfl, hless⟩
      · exact hread
      · exact ih less (Nat.lt_succ_self less) hless
    rcases hlast with rfl | hmade
    · exact hkept
    · exact read_makeDir hmade hkept

/-- **Making directories changes nothing that can be read.** -/
theorem read_makeDirs {path other content : Bytes} (h : t.makeDirs path = .ok made)
    (hread : t.read other = .ok content) : made.read other = .ok content :=
  read_makeDirsWithin h hread

/-! ## Beside a new file

A file that is written may replace one, so here it is asked only that neither a directory nor a link
stood there. -/

/-- A directory is still one once a file is written where neither a directory nor a link stood. -/
theorem stat_set_of_plain {file : Location} (hfile : t.Plain file) (content : Bytes) {path : Bytes}
    (h : t.stat path = .ok .dir) : (t.set file (.file content)).stat path = .ok .dir := by
  rw [stat, locate] at h
  rcases hplace : t.resolve true path with cause | at_ | ⟨parent, name⟩
  · simp [hplace] at h
  · rcases hnode : t.node? at_ with _ | node
    · simp [hplace, hnode] at h
    · simp only [hplace, hnode, Except.ok.injEq] at h
      subst h
      have hresolve : (t.set file (.file content)).resolve true path = .ok (.present at_) := by
        rw [resolve, resolveSteps] at hplace ⊢
        split_ifs at hplace ⊢
        exact follow_set_of_plain hfile content hplace
      have hkept := node?_set_of_ne t (hfile.ne_of_node? hnode dir_ne_file) (.file content)
      simp only [stat, locate, hresolve, hkept, hnode]
  · simp [hplace] at h

/-- **A file that could be written can be read.** -/
theorem WellFormed.read_create (h : t.WellFormed) {path content : Bytes}
    (hmade : t.create path content = .ok made) : made.read path = .ok content := by
  rcases h.create_cases path with ⟨error, herror⟩ | ⟨place, hplace, hplain, -, hcreate⟩
  · exact absurd (hmade.symm.trans (herror content)) nofun
  · obtain rfl := Except.ok.inj (hmade.symm.trans (hcreate content))
    simp only [read, locate, resolve_set_of_plain hplace hplain content, node?_set_self]

end FileTree

end BraceBalance
