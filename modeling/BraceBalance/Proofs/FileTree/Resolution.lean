import BraceBalance.Proofs.FileTree.Update
import BraceBalance.Proofs.Path.Join

/-!
# Proofs/FileTree/Resolution — where paths lead in a well-formed tree

In a `WellFormed` tree a path that is followed to its end never ends at a link
(`WellFormed.resolve_ends`).  With a file put at a place that held no directory and no link, every
path leads where it led before, and what was missing there is met there (`resolve_set_of_plain`); so
writing a file again is as if the first writing had not been (`WellFormed.create_create`).
-/

namespace BraceBalance

namespace FileTree

variable {t : FileTree}

/-- Every location has one node, stands in a directory, and is led to by names. -/
structure WellFormed (t : FileTree) : Prop where
  distinct : (t.nodes.map Prod.fst).Nodup
  named : ∀ entry ∈ t.nodes, ∀ name ∈ entry.1, Path.IsName name
  housed : ∀ entry ∈ t.nodes, entry.1 ≠ [] → t.node? entry.1.dropLast = some .dir
  root : t.node? [] = some .dir
  workingDir : t.node? t.workingDir = some .dir

/-- Neither a directory nor a link stands at a location. -/
def Plain (t : FileTree) (at_ : Location) : Prop :=
  ∀ node, t.node? at_ = some node → ∃ content, node = .file content

/-- A directory or a link stands elsewhere than at a plain location. -/
theorem Plain.ne_of_node? {file at_ : Location} (hfile : t.Plain file) {node : Node}
    (h : t.node? at_ = some node) (hnode : ∀ content, node ≠ .file content) : at_ ≠ file := by
  rintro rfl
  obtain ⟨content, hcontent⟩ := hfile node h
  exact hnode content hcontent

theorem dir_ne_file (content : Bytes) : Node.dir ≠ .file content := nofun

theorem link_ne_file (target content : Bytes) : Node.link target ≠ .file content := nofun

/-- No link stands at a location. -/
def Direct (t : FileTree) (at_ : Location) : Prop := ∀ target, t.node? at_ ≠ some (.link target)

/-- Where a directory stands there is no link. -/
theorem direct_of_dir {at_ : Location} (h : t.node? at_ = some .dir) : t.Direct at_ := by
  intro target htarget
  exact absurd (h.symm.trans htarget) nofun

theorem mem_of_node? {at_ : Location} {node : Node} (h : t.node? at_ = some node) :
    (at_, node) ∈ t.nodes := mem_of_lookup h

/-- The directory above a directory is one. -/
theorem WellFormed.dir_dropLast (h : t.WellFormed) {at_ : Location}
    (hdir : t.node? at_ = some .dir) : t.node? at_.dropLast = some .dir := by
  by_cases hroot : at_ = []
  · rw [hroot]
    exact h.root
  · exact h.housed _ (mem_of_node? hdir) hroot

/-! ## Paths end at no link

The induction is on how names are followed; what it carries is that each link that is met belongs to
a directory. -/

/-- What is known of the place that names lead to. -/
def Advance.Ends (t : FileTree) : Advance → Prop
  | .arrived at_ => t.Direct at_
  | .missing parent name => t.node? (parent ++ [name]) = none
  | .link parent _ _ => t.node? parent = some .dir
  | .stuck _ => True

section

variable {followLast : Bool} {at_ : Location}

/-- Names whose last link is followed end at no link, or at a link of a directory still to be
followed. -/
theorem WellFormed.advance_ends (h : t.WellFormed) (hlast : followLast = true)
    (hat : t.Direct at_) (names : List Bytes) : (t.advance followLast at_ names).Ends t := by
  fun_induction advance t followLast at_ names with
  | case1 => exact hat
  | case2 | case5 | case7 => trivial
  | case3 at_ rest hdir ih => exact ih hat
  | case4 at_ rest hdir _ ih => exact ih (direct_of_dir (h.dir_dropLast (not_not.1 hdir)))
  | case6 at_ name _ _ _ _ hnone => exact hnone
  | case8 _ _ _ _ _ _ _ _ _ hkept => exact absurd (hlast.symm.trans hkept.2) nofun
  | case9 at_ name rest hdir => exact not_not.1 hdir
  | case10 at_ name rest _ _ _ _ node hnode hsome ih =>
    refine ih fun target htarget => ?_
    exact hnode target (Option.some.inj (hsome.symm.trans htarget))

/-- What is known of the place that a path leads to. -/
def Place.Ends (t : FileTree) : Place → Prop
  | .present at_ => t.Direct at_
  | .absent parent name => t.node? (parent ++ [name]) = none

/-- Names that are followed through all their links end at none. -/
theorem WellFormed.follow_ends (h : t.WellFormed) (hlast : followLast = true) {links : Nat}
    (hat : t.Direct at_) {names : List Bytes} {place : Place}
    (hfollow : t.follow followLast links at_ names = .ok place) : place.Ends t := by
  fun_induction follow t followLast links at_ names with
  | case1 _ at_ names l hadvance =>
    obtain rfl := Except.ok.inj hfollow
    have hends := h.advance_ends hlast hat names
    rwa [hadvance] at hends
  | case2 _ at_ names parent name hadvance =>
    obtain rfl := Except.ok.inj hfollow
    have hends := h.advance_ends hlast hat names
    rwa [hadvance] at hends
  | case3 | case4 => exact absurd hfollow nofun
  | case5 at_ names parent target rest hadvance links ih =>
    have hends := h.advance_ends hlast hat names
    rw [hadvance] at hends
    refine ih ?_ hfollow
    split_ifs
    · exact direct_of_dir h.root
    · exact direct_of_dir hends

/-- A path whose last link is followed does not end at a link. -/
theorem WellFormed.resolve_ends (h : t.WellFormed) {path : Bytes} {place : Place}
    (hplace : t.resolve true path = .ok place) : place.Ends t := by
  rw [resolve, resolveSteps] at hplace
  split_ifs at hplace
  refine h.follow_ends rfl ?_ hplace
  rw [origin]
  split_ifs
  · exact direct_of_dir h.root
  · exact direct_of_dir h.workingDir

/-! ## A file at a plain location

A path goes by what directories and links there are, and these stay; only a path that ended at the
missing file ends otherwise. -/

/-- The location a path leads to, whether or not something stands there. -/
def Place.location : Place → Location
  | .present at_ => at_
  | .absent parent name => parent ++ [name]

/-- Where names lead with a file at a location: what was missing there is met. -/
def Advance.past (file : Location) : Advance → Advance
  | .missing parent name => if parent ++ [name] = file then .arrived file else .missing parent name
  | other => other

/-- Where a path leads with a file at a location. -/
def Place.past (file : Location) : Place → Place
  | .absent parent name => if parent ++ [name] = file then .present file else .absent parent name
  | .present at_ => .present at_

/-- With a file at a plain location, names that are not refused lead past it or, if it was missing,
to it. -/
theorem advance_set_of_plain {file : Location} (hfile : t.Plain file) (content : Bytes)
    (names : List Bytes) :
    (∃ cause, t.advance followLast at_ names = .stuck cause) ∨
      (t.set file (.file content)).advance followLast at_ names =
        (t.advance followLast at_ names).past file := by
  -- A directory stands elsewhere, so the new tree has it too.
  have hkept : ∀ {at_}, ¬t.node? at_ ≠ some .dir →
      ¬(t.set file (.file content)).node? at_ ≠ some .dir := by
    intro at_ hdir
    rwa [node?_set_of_ne t (hfile.ne_of_node? (not_not.1 hdir) dir_ne_file)]
  fun_induction advance t followLast at_ names with
  | case1 => exact .inr rfl
  | case2 | case5 | case7 => exact .inl ⟨_, rfl⟩
  | case3 at_ rest hdir ih =>
    rwa [advance, if_neg (hkept hdir), if_pos rfl]
  | case4 at_ rest hdir hhere ih =>
    rwa [advance, if_neg (hkept hdir), if_neg hhere, if_pos rfl]
  | case6 at_ name hdir hhere habove hlong hnone =>
    right
    rw [advance, if_neg (hkept hdir), if_neg hhere, if_neg habove, if_neg hlong]
    by_cases hmet : at_ ++ [name] = file
    · rw [hmet, node?_set_self, Advance.past, if_pos hmet]
      rfl
    · rw [node?_set_of_ne t hmet, hnone, Advance.past, if_neg hmet]
      rfl
  | case8 at_ name rest hdir hhere habove hlong target hlink hend =>
    right
    rw [advance, if_neg (hkept hdir), if_neg hhere, if_neg habove, if_neg hlong,
      node?_set_of_ne t (hfile.ne_of_node? hlink (link_ne_file target)), hlink]
    exact if_pos hend
  | case9 at_ name rest hdir hhere habove hlong target hlink hend =>
    right
    rw [advance, if_neg (hkept hdir), if_neg hhere, if_neg habove, if_neg hlong,
      node?_set_of_ne t (hfile.ne_of_node? hlink (link_ne_file target)), hlink]
    exact if_neg hend
  | case10 at_ name rest hdir hhere habove hlong node hnode hsome ih =>
    have hstep : (t.set file (.file content)).advance followLast at_ (name :: rest) =
        (t.set file (.file content)).advance followLast (at_ ++ [name]) rest := by
      rw [advance, if_neg (hkept hdir), if_neg hhere, if_neg habove, if_neg hlong]
      by_cases hmet : at_ ++ [name] = file
      · rw [hmet, node?_set_self]
      · rw [node?_set_of_ne t hmet, hsome]
        rcases node with _ | found | target
        · rfl
        · rfl
        · exact absurd rfl (hnode target)
    rwa [hstep]

/-- The same through any number of links. -/
theorem follow_set_of_plain {file : Location} (hfile : t.Plain file) (content : Bytes)
    {links : Nat} {names : List Bytes} {place : Place}
    (hfollow : t.follow followLast links at_ names = .ok place) :
    (t.set file (.file content)).follow followLast links at_ names = .ok (place.past file) := by
  have hset : ∀ {at_ names reached}, t.advance followLast at_ names = reached →
      (∀ cause, reached ≠ .stuck cause) →
        (t.set file (.file content)).advance followLast at_ names = reached.past file := by
    intro at_ names reached hreached hgoes
    rcases advance_set_of_plain hfile content names with ⟨cause, hstuck⟩ | hpast
    · exact absurd (hreached.symm.trans hstuck) (hgoes cause)
    · rw [hpast, hreached]
  fun_induction follow t followLast links at_ names with
  | case1 links at_ names l hadvance =>
    obtain rfl := Except.ok.inj hfollow
    rw [follow, hset hadvance (by simp)]
    rfl
  | case2 links at_ names parent name hadvance =>
    obtain rfl := Except.ok.inj hfollow
    rw [follow, hset hadvance (by simp), Advance.past, Place.past]
    split_ifs <;> rfl
  | case3 | case4 => cases hfollow
  | case5 at_ names parent target rest hadvance links ih =>
    rw [follow, hset hadvance (by simp)]
    exact ih hfollow

/-- With a file where a path leads to, the path is followed to the file. -/
theorem resolve_set_of_plain {path : Bytes} {place : Place}
    (hplace : t.resolve followLast path = .ok place) (hplain : t.Plain place.location)
    (content : Bytes) :
    (t.set place.location (.file content)).resolve followLast path =
      .ok (.present place.location) := by
  have hpast : place.past place.location = .present place.location := by
    rcases place with l | ⟨parent, name⟩
    · rfl
    · exact if_pos rfl
  rw [resolve, resolveSteps] at hplace ⊢
  split_ifs at hplace ⊢
  rw [← hpast]
  exact follow_set_of_plain hplain content hplace

end

/-! ## Writing a file -/

/-- Of two nodes put at one location the second stays. -/
theorem set_set (t : FileTree) (at_ : Location) (node other : Node) :
    (t.set at_ node).set at_ other = t.set at_ other := by
  rw [set, set, set]
  congr 2
  rw [List.filter_append, List.filter_filter]
  simp

/-- A path is refused whatever is to be written, or it leads to a file or to nothing, and whatever is
written stands there. -/
theorem WellFormed.create_cases (h : t.WellFormed) (path : Bytes) :
    (∃ error, ∀ content, t.create path content = .error error) ∨
      ∃ place, t.resolve true path = .ok place ∧ t.Plain place.location ∧
        Path.trailing path = false ∧
        ∀ content, t.create path content = .ok (t.set place.location (.file content)) := by
  by_cases htrailing : Path.trailing path = true
  · left
    rcases hsteps : t.resolveSteps true path ((Path.names path).dropLast ++ [Path.here])
      with cause | place
    · exact ⟨_, fun content => by simp only [create, htrailing, hsteps, if_true]; rfl⟩
    · exact ⟨_, fun content => by simp only [create, htrailing, hsteps, if_true]; rfl⟩
  have hwhole : Path.trailing path = false := Bool.eq_false_iff.2 htrailing
  rcases hplace : t.resolve true path with cause | l | ⟨parent, name⟩
  · exact .inl ⟨_, fun content => by
      simp only [create, hwhole, hplace, Bool.false_eq_true, if_false]; rfl⟩
  · have hdirect : t.Direct l := h.resolve_ends hplace
    by_cases hdir : t.node? l = some .dir
    · exact .inl ⟨_, fun content => by
        simp only [create, hwhole, hplace, hdir, Bool.false_eq_true, if_false, if_true]; rfl⟩
    · refine .inr ⟨.present l, rfl, ?_, hwhole, fun content => ?_⟩
      · intro node hnode
        rcases node with _ | content | target
        · exact absurd hnode hdir
        · exact ⟨content, rfl⟩
        · exact absurd hnode (hdirect target)
      · simp only [create, hwhole, hplace, hdir, Bool.false_eq_true, if_false]
        rfl
  · have hnone : t.node? (parent ++ [name]) = none := h.resolve_ends hplace
    refine .inr ⟨.absent parent name, rfl, ?_, hwhole, fun content => ?_⟩
    · intro node hnode
      exact absurd (hnode.symm.trans hnone) (Option.some_ne_none node)
    · simp only [create, hwhole, hplace, Bool.false_eq_true, if_false]
      rfl

/-- **Writing a file again is as if the first writing had not been.** -/
theorem WellFormed.create_create (h : t.WellFormed) {path content : Bytes} {made : FileTree}
    (hmade : t.create path content = .ok made) (other : Bytes) :
    made.create path other = t.create path other := by
  rcases h.create_cases path with ⟨error, herror⟩ | ⟨place, hplace, hplain, hwhole, hcreate⟩
  · exact absurd (hmade.symm.trans (herror content)) nofun
  · obtain rfl := Except.ok.inj (hmade.symm.trans (hcreate content))
    have hagain := resolve_set_of_plain hplace hplain content
    have hfile : (t.set place.location (.file content)).node? place.location ≠ some .dir := by
      rw [node?_set_self]
      exact nofun
    rw [hcreate, ← t.set_set place.location (.file content) (.file other)]
    simp only [create, hwhole, hagain, hfile, Bool.false_eq_true, if_false]

/-! ## Looking at a path without following its last link

A path leads to a link, or it leads where it leads with the last link followed. -/

/-- Whether the last link is followed makes a difference only where names arrive at one. -/
theorem advance_eq_or_link (t : FileTree) (followLast : Bool) (at_ : Location)
    (names : List Bytes) :
    t.advance followLast at_ names = t.advance true at_ names ∨
      ∃ l target, t.advance followLast at_ names = .arrived l ∧ t.node? l = some (.link target) := by
  fun_induction advance t followLast at_ names with
  | case1 => exact .inl rfl
  | case2 at_ name rest hdir => exact .inl (by rw [advance, if_pos hdir])
  | case3 at_ rest hdir ih => rwa [advance, if_neg hdir, if_pos rfl]
  | case4 at_ rest hdir hhere ih => rwa [advance, if_neg hdir, if_neg hhere, if_pos rfl]
  | case5 at_ name rest hdir hhere habove hlong =>
    exact .inl (by rw [advance, if_neg hdir, if_neg hhere, if_neg habove, if_pos hlong])
  | case6 at_ name hdir hhere habove hlong hnone =>
    left
    rw [advance, if_neg hdir, if_neg hhere, if_neg habove, if_neg hlong, hnone]
    rfl
  | case7 at_ name rest hdir hhere habove hlong hnone hmore =>
    left
    rw [advance, if_neg hdir, if_neg hhere, if_neg habove, if_neg hlong, hnone]
    exact (if_neg hmore).symm
  | case8 at_ name rest hdir hhere habove hlong target hlink =>
    exact .inr ⟨_, target, rfl, hlink⟩
  | case9 at_ name rest hdir hhere habove hlong target hlink hmore =>
    left
    rw [advance, if_neg hdir, if_neg hhere, if_neg habove, if_neg hlong, hlink]
    exact (if_neg fun hend => Bool.false_ne_true hend.2.symm).symm
  | case10 at_ name rest hdir hhere habove hlong node hnode hsome ih =>
    have hstep : t.advance true at_ (name :: rest) = t.advance true (at_ ++ [name]) rest := by
      rw [advance, if_neg hdir, if_neg hhere, if_neg habove, if_neg hlong, hsome]
      rcases node with _ | found | target
      · rfl
      · rfl
      · exact absurd rfl (hnode target)
    rwa [hstep]

/-- The same through any number of links. -/
theorem follow_eq_or_link (t : FileTree) (followLast : Bool) (links : Nat) (at_ : Location)
    (names : List Bytes) :
    t.follow followLast links at_ names = t.follow true links at_ names ∨
      ∃ l target, t.follow followLast links at_ names = .ok (.present l) ∧
        t.node? l = some (.link target) := by
  induction links generalizing at_ names with
  | zero =>
    rw [follow, follow]
    rcases t.advance_eq_or_link followLast at_ names with h | ⟨l, target, h, hlink⟩ <;> rw [h]
    · exact .inl rfl
    · exact .inr ⟨l, target, rfl, hlink⟩
  | succ links ih =>
    rw [follow, follow]
    rcases t.advance_eq_or_link followLast at_ names with h | ⟨l, target, h, hlink⟩ <;> rw [h]
    · rcases t.advance true at_ names with l | ⟨parent, name⟩ | ⟨parent, target, rest⟩ | cause
      · exact .inl rfl
      · exact .inl rfl
      · exact ih _ _
      · exact .inl rfl
    · exact .inr ⟨l, target, rfl, hlink⟩

theorem resolve_eq_or_link (t : FileTree) (path : Bytes) :
    t.resolve false path = t.resolve true path ∨
      ∃ l target, t.resolve false path = .ok (.present l) ∧ t.node? l = some (.link target) := by
  rw [resolve, resolve, resolveSteps, resolveSteps]
  split_ifs
  · exact .inl rfl
  · exact .inl rfl
  · exact .inl rfl
  · exact t.follow_eq_or_link false _ _ _

theorem lstat_eq_ok_iff {path : Bytes} {found : Location × Node} :
    t.lstat path = .ok found ↔ t.locate false path = .ok found := by
  rw [lstat]
  rcases t.locate false path with cause | other <;> simp

/-- Where there is no link, following one makes no difference. -/
theorem locate_of_lstat {path : Bytes} {found : Location × Node} (h : t.lstat path = .ok found)
    (hdirect : ∀ target, found.2 ≠ .link target) : t.locate true path = .ok found := by
  rw [lstat] at h
  rcases t.resolve_eq_or_link path with heq | ⟨l, target, hplace, hlink⟩
  · have hlocate : t.locate false path = t.locate true path := by rw [locate, heq, locate]
    rw [hlocate] at h
    rcases hfound : t.locate true path with cause | other <;> simp only [hfound] at h
    · cases h
    · cases h
      rfl
  · simp only [locate, hplace, hlink, Except.ok.injEq] at h
    exact absurd rfl (h ▸ hdirect target)

theorem stat_of_lstat {path : Bytes} {found : Location × Node} (h : t.lstat path = .ok found)
    (hdirect : ∀ target, found.2 ≠ .link target) : t.stat path = .ok found.2 := by
  rw [stat, locate_of_lstat h hdirect]

end FileTree

end BraceBalance
