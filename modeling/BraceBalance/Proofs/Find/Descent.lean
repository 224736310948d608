import BraceBalance.Proofs.FileTree.Entries

/-!
# Proofs/Find/Descent — what is found is where its path leads

    root ──clean──▸ kept names ──follow, through links──▸ directory ──names below──▸ file

A path that is found is joined to its root by spelling alone; following it is another matter.  Names
lead on from where the names before them lead (`follow_append`), and below a directory they meet
directories only, so no link diverts them (`WellFormed.advance_below`).  So if the root, spelled as
short as can be, leads to the directory that was walked, a path that is found leads to what was
found (`WellFormed.locate_foldl_join`).  The same holds name by name, where a directory is read under
the path joined for it (`Leads.enter`) and its entries are looked up behind it
(`WellFormed.lstat_entry`).
-/

namespace BraceBalance

namespace FileTree

variable {t : FileTree} {followLast : Bool} {at_ l : Location} {ns more : List Bytes}

/-! ## Names behind names

The links that are met among the first names count, so that there are fewer left for those
behind. -/

/-- Where names lead that stand behind others. -/
def Advance.on (t : FileTree) (followLast : Bool) (more : List Bytes) : Advance → Advance
  | .arrived at_ => t.advance followLast at_ more
  | .missing _ _ => .stuck .notFound
  | .link parent target rest => .link parent target (rest ++ more)
  | .stuck cause => .stuck cause

/-- Names behind others are followed from where those lead, with the last link of those followed. -/
theorem advance_append (hmore : more ≠ []) (at_ : Location) (ns : List Bytes) :
    t.advance followLast at_ (ns ++ more) = (t.advance true at_ ns).on t followLast more := by
  have hbehind : ∀ rest : List Bytes, rest ++ more ≠ [] := fun rest =>
    List.append_ne_nil_of_right_ne_nil rest hmore
  generalize hlast : true = last
  fun_induction advance t last at_ ns with
  | case1 => rfl
  | case2 at_ name rest hdir =>
    rw [List.cons_append, advance, if_pos hdir]
    rfl
  | case3 at_ rest hdir ih => rw [List.cons_append, advance, if_neg hdir, if_pos rfl, ih]
  | case4 at_ rest hdir hhere ih =>
    rw [List.cons_append, advance, if_neg hdir, if_neg hhere, if_pos rfl, ih]
  | case5 at_ name rest hdir hhere habove hlong =>
    rw [List.cons_append, advance, if_neg hdir, if_neg hhere, if_neg habove, if_pos hlong]
    rfl
  | case6 at_ name hdir hhere habove hlong hnone =>
    rw [List.cons_append, advance, if_neg hdir, if_neg hhere, if_neg habove, if_neg hlong, hnone]
    exact if_neg (hbehind [])
  | case7 at_ name rest hdir hhere habove hlong hnone hrest =>
    rw [List.cons_append, advance, if_neg hdir, if_neg hhere, if_neg habove, if_neg hlong, hnone]
    exact if_neg (hbehind rest)
  | case8 at_ name rest hdir hhere habove hlong target hlink hend =>
    -- The names before others are followed through their last link.
    exact absurd (hend.2.symm.trans hlast.symm) Bool.false_ne_true
  | case9 at_ name rest hdir hhere habove hlong target hlink hend =>
    rw [List.cons_append, advance, if_neg hdir, if_neg hhere, if_neg habove, if_neg hlong, hlink]
    exact if_neg fun hnil => hbehind rest hnil.1
  | case10 at_ name rest hdir hhere habove hlong node hnode hsome ih =>
    rw [List.cons_append, advance, if_neg hdir, if_neg hhere, if_neg habove, if_neg hlong, hsome]
    rcases node with _ | content | target
    · exact ih
    · exact ih
    · exact absurd rfl (hnode target)

/-- Names lead on from where those before them lead, however many links these took. -/
theorem follow_append (hmore : more ≠ []) {links : Nat} {place : Place}
    (h : t.follow true links at_ ns = .ok (.present l))
    (hreach : ∀ links, t.follow followLast links l more = .ok place) :
    t.follow followLast links at_ (ns ++ more) = .ok place := by
  have hon : ∀ at_ ns, t.advance followLast at_ (ns ++ more) = _ := advance_append hmore
  generalize hlast : true = last at h
  fun_induction follow t last links at_ ns with
  | case1 links at_ ns found hadvance =>
    cases h
    subst hlast
    -- Some links may be used up by now, but what is left to follow takes none of those left.
    rw [follow, hon, hadvance, Advance.on, ← follow]
    exact hreach links
  | case2 | case3 | case4 => cases h
  | case5 at_ ns parent target rest hadvance links ih =>
    subst hlast
    rw [follow, hon, hadvance, Advance.on]
    dsimp only
    rw [← List.append_assoc]
    exact ih h

/-- Where names lead that stand behind others, these lead somewhere. -/
theorem exists_follow_of_append (hmore : more ≠ []) {links : Nat} {place : Place}
    (h : t.follow followLast links at_ (ns ++ more) = .ok place) :
    ∃ l left, t.follow true links at_ ns = .ok (.present l) ∧
      t.follow followLast left l more = .ok place := by
  have hon : ∀ at_ ns, t.advance followLast at_ (ns ++ more) = _ := advance_append hmore
  generalize hlast : true = last
  fun_induction follow t last links at_ ns with
  | case1 links at_ ns found hadvance =>
    subst hlast
    rw [follow, hon, hadvance, Advance.on, ← follow] at h
    exact ⟨found, links, rfl, h⟩
  | case2 links at_ ns parent name hadvance =>
    subst hlast
    rw [follow, hon, hadvance] at h
    cases h
  | case3 links at_ ns cause hadvance =>
    subst hlast
    rw [follow, hon, hadvance] at h
    cases h
  | case4 at_ ns parent target rest hadvance =>
    subst hlast
    rw [follow, hon, hadvance] at h
    cases h
  | case5 at_ ns parent target rest hadvance links ih =>
    subst hlast
    rw [follow, hon, hadvance, Advance.on] at h
    dsimp only at h
    rw [← List.append_assoc] at h
    exact ih h

/-! ## Below a directory

In a well-formed tree the names below a directory lead through directories only, so no link is met
before the last of them. -/

/-- Below a directory names lead on from directory to directory, to whatever is no link. -/
theorem WellFormed.advance_below (h : t.WellFormed) (hat : t.node? at_ = some .dir) {node : Node}
    (hnode : t.node? (at_ ++ ns) = some node) (hlink : ∀ target, node ≠ .link target)
    (hnames : ∀ n ∈ ns, Path.IsName n) (hshort : ∀ n ∈ ns, n.length ≤ maxName) :
    t.advance followLast at_ ns = .arrived (at_ ++ ns) := by
  induction ns generalizing at_ with
  | nil => rw [advance, List.append_nil]
  | cons n ns ih =>
    obtain ⟨hn, hns⟩ := List.forall_mem_cons.1 hnames
    obtain ⟨hfits, hshort⟩ := List.forall_mem_cons.1 hshort
    rw [List.append_cons] at hnode ⊢
    rw [advance, if_neg (not_not.2 hat), if_neg hn.ne_here, if_neg hn.ne_above,
      if_neg (Nat.not_lt.2 hfits)]
    by_cases hlast : ns = []
    · rw [hlast, List.append_nil] at hnode ⊢
      rw [hnode]
      rcases node with _ | content | target
      · rw [advance]
      · rw [advance]
      · exact absurd rfl (hlink target)
    · have hnext := h.dir_of_append hlast hnode
      rw [hnext]
      exact ih hnext hnode hns hshort

/-! ## From the root on

A root may lead through links as it stands; what a walk joins to it is cleaned, and goes by the
names that are left. -/

/-- Names that are spelled as a path are the ones it is followed by. -/
theorem steps_spell (fromRoot : Bool) (h : ∀ n ∈ ns, Path.Piece n) (hne : ns ≠ []) :
    steps (Path.spell fromRoot ns) = ns := by
  obtain ⟨init, name, rfl⟩ := ns.eq_nil_or_concat'.resolve_left hne
  have hname := h name (List.mem_append_right _ List.mem_cons_self)
  obtain ⟨front, -, hspell⟩ := Path.exists_spell_concat fromRoot init hname.ne_nil
  rw [steps, (Path.rooted_names_spell fromRoot h hne).2, hspell, hname.trailing_append]
  exact List.append_nil _

/-- The shortest spelling of a path starts where the path does, and is followed by the names that
are left of it. -/
theorem rooted_steps_clean (root : Bytes) :
    Path.rooted (Path.clean root) = Path.rooted root ∧
      steps (Path.clean root) =
        if Path.kept root = [] then [Path.here] else Path.kept root := by
  rw [Path.clean_eq_spell]
  by_cases hnil : Path.kept root = []
  · rw [hnil, if_pos rfl]
    rcases Path.rooted root with _ | _
    · exact ⟨by decide, by decide⟩
    · exact ⟨by decide, by decide⟩
  · have hpieces : ∀ n ∈ Path.kept root, Path.Piece n := fun _ => Path.piece_of_mem_kept
    rw [if_neg hnil]
    exact ⟨(Path.rooted_names_spell _ hpieces hnil).1, steps_spell _ hpieces hnil⟩

/-- A path joined by names is followed by the names that are left of the root, and then by these. -/
theorem names_steps_foldl_join (hnames : ∀ n ∈ ns, Path.IsName n) (hne : ns ≠ []) (root : Bytes) :
    Path.names (ns.foldl Path.join root) = Path.kept root ++ ns ∧
      steps (ns.foldl Path.join root) = Path.kept root ++ ns := by
  have hpieces : ∀ n ∈ Path.kept root ++ ns, Path.Piece n :=
    List.forall_mem_append.2 ⟨fun _ => Path.piece_of_mem_kept, fun n hn => (hnames n hn).toPiece⟩
  have hsome : Path.kept root ++ ns ≠ [] := List.append_ne_nil_of_right_ne_nil _ hne
  rw [Path.foldl_join_eq_spell hnames hne]
  exact ⟨(Path.rooted_names_spell _ hpieces hsome).2, steps_spell _ hpieces hsome⟩

/-- A path that no call refuses for how it is spelled. -/
structure Spellable (path : Bytes) : Prop where
  whole : path.contains 0 = false
  short : path.length ≤ maxPath
  names : ∀ name ∈ Path.names path, name.length ≤ maxName

instance (path : Bytes) : Decidable (Spellable path) :=
  decidable_of_iff (path.contains 0 = false ∧ path.length ≤ maxPath ∧
      ∀ name ∈ Path.names path, name.length ≤ maxName)
    ⟨fun h => ⟨h.1, h.2.1, h.2.2⟩, fun h => ⟨h.whole, h.short, h.names⟩⟩

/-- A path that is not refused for its spelling is looked up by following its names. -/
theorem Spellable.locate_eq {path : Bytes} (h : Spellable path) (hsome : Path.names path ≠ [])
    (hfollow : t.follow followLast maxLinks (t.origin path) (steps path) = .ok (.present l))
    {node : Node} (hnode : t.node? l = some node) : t.locate followLast path = .ok (l, node) := by
  have hpath : path ≠ [] := by
    rintro rfl
    exact hsome rfl
  have hresolve : t.resolve followLast path = .ok (.present l) := by
    rw [resolve, resolveSteps, if_neg hpath, if_neg (Bool.eq_false_iff.1 h.whole),
      if_neg (Nat.not_lt.2 h.short)]
    exact hfollow
  simp only [locate, hresolve, hnode]

/-- Where a path leads is where its names lead from where it starts. -/
theorem resolve_eq_ok {path : Bytes} {place : Place} (h : t.resolve followLast path = .ok place) :
    t.follow followLast maxLinks (t.origin path) (steps path) = .ok place := by
  rw [resolve, resolveSteps] at h
  split_ifs at h
  exact h

theorem locate_eq_ok {path : Bytes} {node : Node} (h : t.locate followLast path = .ok (l, node)) :
    t.resolve followLast path = .ok (.present l) ∧ t.node? l = some node := by
  rw [locate] at h
  rcases hplace : t.resolve followLast path with cause | found | ⟨parent, name⟩ <;>
    simp only [hplace] at h
  · cases h
  · rcases hnode : t.node? found with _ | node' <;> simp only [hnode] at h
    · cases h
    · cases h
      exact ⟨rfl, hnode⟩
  · cases h

/-- The names that are left of a root lead where its shortest spelling leads. -/
theorem follow_kept {root : Bytes} (h : t.resolve true (Path.clean root) = .ok (.present l)) :
    t.follow true maxLinks (t.origin root) (Path.kept root) = .ok (.present l) := by
  obtain ⟨hrooted, hsteps⟩ := rooted_steps_clean root
  have hfollow := resolve_eq_ok h
  rw [origin, hrooted, ← origin, hsteps] at hfollow
  by_cases hnil : Path.kept root = []
  · by_cases hdir : t.node? (t.origin root) ≠ some .dir
    · rw [if_pos hnil, follow, advance, if_pos hdir] at hfollow
      cases hfollow
    · rw [if_pos hnil, follow, advance, if_neg hdir, if_pos rfl] at hfollow
      rw [hnil, follow]
      exact hfollow
  · rwa [if_neg hnil] at hfollow

/-- **A path joined by the names below a directory leads to what stands there**, if the root it is
joined to leads to the directory once it is spelled as short as can be. -/
theorem WellFormed.locate_foldl_join (h : t.WellFormed) {root : Bytes}
    (hroot : t.locate true (Path.clean root) = .ok (at_, .dir)) {node : Node}
    (hmem : (ns, node) ∈ t.below at_) (hlink : ∀ target, node ≠ .link target)
    (hspell : Spellable (ns.foldl Path.join root)) :
    t.locate followLast (ns.foldl Path.join root) = .ok (at_ ++ ns, node) := by
  obtain ⟨hplace, hat⟩ := locate_eq_ok hroot
  obtain ⟨hentry, hne⟩ := mem_below_iff.1 hmem
  have hnode := h.node?_of_mem hentry
  have hnames := h.isName_of_mem_below hmem
  obtain ⟨hspelled, hsteps⟩ := names_steps_foldl_join hnames hne root
  have hshort : ∀ n ∈ ns, n.length ≤ maxName := fun n hn =>
    hspell.names n (hspelled ▸ List.mem_append_right _ hn)
  have hfollow : t.follow followLast maxLinks (t.origin root) (Path.kept root ++ ns) =
      .ok (.present (at_ ++ ns)) := by
    refine follow_append hne (follow_kept hplace) fun links => ?_
    rw [follow, h.advance_below hat hnode hlink hnames hshort]
  have hsome : Path.names (ns.foldl Path.join root) ≠ [] := by
    rw [hspelled]
    exact List.append_ne_nil_of_right_ne_nil _ hne
  refine hspell.locate_eq hsome ?_ hnode
  rw [hsteps, origin, Path.rooted_foldl_join hnames, ← origin]
  exact hfollow

/-! ## One name on from a directory -/

/-- One name leads from a directory to its entry, unless it is too long or is a link still to be
followed. -/
theorem follow_entry (hat : t.node? at_ = some .dir) {name : Bytes} (hname : Path.IsName name)
    {node : Node} (hnode : t.node? (at_ ++ [name]) = some node)
    (hlink : followLast = true → ∀ target, node ≠ .link target) (links : Nat) :
    t.follow followLast links at_ [name] =
      if maxName < name.length then .error .nameTooLong else .ok (.present (at_ ++ [name])) := by
  have hadvance : t.advance followLast at_ [name] =
      if maxName < name.length then .stuck .nameTooLong else .arrived (at_ ++ [name]) := by
    rw [advance, if_neg (not_not.2 hat), if_neg hname.ne_here, if_neg hname.ne_above, hnode]
    rcases node with _ | content | target
    · rfl
    · rfl
    · rcases followLast with _ | _
      · rfl
      · exact absurd rfl (hlink rfl target)
  rw [follow, hadvance]
  split_ifs <;> rfl

/-- A path leads to a directory, as it is and when it is spelled as short as can be. -/
structure Leads (t : FileTree) (path : Bytes) (at_ : Location) : Prop where
  whole : t.locate true path = .ok (at_, .dir)
  spelled : t.locate true (Path.clean path) = .ok (at_, .dir)

theorem Leads.of_lstat {path : Bytes} (h : t.lstat path = .ok (at_, .dir))
    (hclean : t.locate true (Path.clean path) = .ok (at_, .dir)) : t.Leads path at_ :=
  ⟨locate_of_lstat h (by simp), hclean⟩

/-- The names of a path lead where the path leads, whether or not a separator stands behind. -/
theorem follow_names {path : Bytes} (h : t.locate true path = .ok (at_, .dir)) :
    t.follow true maxLinks (t.origin path) (Path.names path) = .ok (.present at_) := by
  obtain ⟨hplace, hat⟩ := locate_eq_ok h
  have hfollow := resolve_eq_ok hplace
  rw [steps] at hfollow
  split_ifs at hfollow
  · obtain ⟨l, left, hnames, hlast⟩ := exists_follow_of_append (List.cons_ne_nil _ _) hfollow
    rw [follow, advance] at hlast
    by_cases hdir : t.node? l ≠ some .dir
    · rw [if_pos hdir] at hlast
      cases hlast
    · rw [if_neg hdir, if_pos rfl, advance] at hlast
      cases hlast
      exact hnames
  · rwa [List.append_nil] at hfollow

/-- A path that leads to a directory by all its names but the last leads to the entry of that
name, unless it cannot be spelled. -/
theorem WellFormed.locate_entry (h : t.WellFormed) {path name : Bytes} {node : Node}
    (hsteps : steps path = ns ++ [name])
    (hfollow : t.follow true maxLinks (t.origin path) ns = .ok (.present at_))
    (hentry : (name, node) ∈ t.entries at_)
    (hlink : followLast = true → ∀ target, node ≠ .link target) :
    (∀ found, t.locate followLast path = .ok found → found = (at_ ++ [name], node)) ∧
      (Spellable path → t.locate followLast path = .ok (at_ ++ [name], node)) := by
  have hname := h.isName_of_mem_entries hentry
  have hnode := h.node?_of_mem (mem_entries_iff.1 hentry)
  have hone := follow_entry (h.dir_of_append (List.cons_ne_nil _ _) hnode) hname hnode hlink
  have hmore : [name] ≠ [] := List.cons_ne_nil _ _
  constructor
  · rintro ⟨l, found⟩ hlocate
    obtain ⟨hplace, hfound⟩ := locate_eq_ok hlocate
    have hwhole := resolve_eq_ok hplace
    rw [hsteps] at hwhole
    obtain ⟨l', left, hnames, hlast⟩ := exists_follow_of_append hmore hwhole
    obtain rfl : at_ = l' := by
      rw [hfollow] at hnames
      injection hnames with hnames
      injection hnames
    rw [hone] at hlast
    split_ifs at hlast
    obtain rfl : at_ ++ [name] = l := by
      injection hlast with hlast
      injection hlast
    rw [Option.some.inj (hfound.symm.trans hnode)]
  · intro hspell
    have hmem : name ∈ Path.names path := by
      have hlast : name ∈ steps path := hsteps ▸ List.mem_append_right _ List.mem_cons_self
      rw [steps] at hlast
      refine (List.mem_append.1 hlast).resolve_right fun hhere => hname.ne_here ?_
      split_ifs at hhere
      · exact List.mem_singleton.1 hhere
      · exact absurd hhere List.not_mem_nil
    have hwhole : t.follow followLast maxLinks (t.origin path) (steps path) =
        .ok (.present (at_ ++ [name])) := by
      rw [hsteps]
      refine follow_append hmore hfollow fun links => ?_
      rw [hone, if_neg (Nat.not_lt.2 (hspell.names name hmem))]
    exact hspell.locate_eq (List.ne_nil_of_mem hmem) hwhole hnode

/-- The name of an entry behind the path of its directory leads to the entry, which may be a
link. -/
theorem WellFormed.lstat_entry (h : t.WellFormed) {path name : Bytes} {node : Node}
    (hdir : t.locate true path = .ok (at_, .dir)) (hentry : (name, node) ∈ t.entries at_) :
    (∀ found, t.lstat (path ++ [Path.separator] ++ name) = .ok found →
        found = (at_ ++ [name], node)) ∧
      (Spellable (path ++ [Path.separator] ++ name) →
        ∃ found, t.lstat (path ++ [Path.separator] ++ name) = .ok found) := by
  have hname := h.isName_of_mem_entries hentry
  have hpath : path ≠ [] := by
    rintro rfl
    cases hdir
  have hnames : Path.names (path ++ [Path.separator] ++ name) = Path.names path ++ [name] := by
    rw [List.append_assoc, List.singleton_append, Path.names_append_cons, hname.names_eq]
  have hsteps : steps (path ++ [Path.separator] ++ name) = Path.names path ++ [name] := by
    rw [steps, hnames, hname.trailing_append]
    exact List.append_nil _
  have horigin : t.origin (path ++ [Path.separator] ++ name) = t.origin path := by
    rw [origin, List.append_assoc, Path.rooted_append hpath, ← origin]
  obtain ⟨honly, hleads⟩ := h.locate_entry hsteps (horigin ▸ follow_names hdir) hentry
    (fun heq => absurd heq Bool.false_ne_true)
  refine ⟨fun found hfound => honly found (lstat_eq_ok_iff.1 hfound), fun hspell => ?_⟩
  exact ⟨_, lstat_eq_ok_iff.2 (hleads hspell)⟩

/-- The name of a directory joined to the path of the one it stands in leads to it, as it is and
when it is spelled as short as can be. -/
theorem Leads.enter {path : Bytes} (hpath : t.Leads path at_) (h : t.WellFormed) {name : Bytes}
    (hentry : (name, .dir) ∈ t.entries at_) :
    ((∃ found, t.locate true (Path.join path name) = .ok found) ∨
        Spellable (Path.join path name)) →
      t.Leads (Path.join path name) (at_ ++ [name]) := by
  have hname := h.isName_of_mem_entries hentry
  have hnames : ∀ n ∈ [name], Path.IsName n := fun n hn => List.mem_singleton.1 hn ▸ hname
  have horigin : t.origin (Path.join path name) = t.origin path := by
    rw [origin, (Path.rooted_kept_join hname path).1, ← origin]
  have hkept := follow_kept (locate_eq_ok hpath.spelled).1
  rw [← horigin] at hkept
  have hdirect : true = true → ∀ target, Node.dir ≠ .link target := by simp
  obtain ⟨honly, hleads⟩ :=
    h.locate_entry (names_steps_foldl_join hnames (by simp) path).2 hkept hentry hdirect
  intro hfound
  have hlocate : t.locate true (Path.join path name) = .ok (at_ ++ [name], .dir) := by
    rcases hfound with ⟨found, hfound⟩ | hspell
    · rw [hfound, honly found hfound]
    · exact hleads hspell
  exact ⟨hlocate, by rwa [Path.clean_join hname]⟩

end FileTree

end BraceBalance
