import BraceBalance.Proofs.Path.Join

/-!
# Proofs/Path/Clean — the shortest spelling of a path

A path comes to whether it starts at the root and to its `Path.kept` names; its shortest spelling
comes to the same (`Path.rooted_kept_clean`), so spelling it twice is spelling it once, and every
byte of it but `.` and `/` was there before (`Path.mem_of_mem_clean`).  A path that goes on within
its last name ends in another name (`Path.base_append_ne`).
-/

namespace BraceBalance

namespace Path

/-! ## Spelling twice -/

/-- A path spelled without names tells where it starts, and has none. -/
theorem rooted_kept_spell_nil (fromRoot : Bool) :
    rooted (spell fromRoot []) = fromRoot ∧ kept (spell fromRoot []) = [] := by
  cases fromRoot <;> exact ⟨rfl, rfl⟩

/-- **The shortest spelling starts where the path starts, and keeps the names it keeps.** -/
theorem rooted_kept_clean (path : Bytes) :
    rooted (clean path) = rooted path ∧ kept (clean path) = kept path := by
  rw [clean_eq_spell]
  by_cases hkept : kept path = []
  · rw [hkept]
    exact rooted_kept_spell_nil (rooted path)
  · obtain ⟨hrooted, hnames⟩ :=
      rooted_names_spell (rooted path) (fun _ => piece_of_mem_kept) hkept
    refine ⟨hrooted, ?_⟩
    rw [kept, hrooted, hnames, foldl_keep_kept, List.reverse_reverse]

/-- **Spelling a path as short as can be twice is doing so once.** -/
theorem clean_clean (path : Bytes) : clean (clean path) = clean path := by
  rw [clean_eq_spell (clean path), (rooted_kept_clean path).1, (rooted_kept_clean path).2,
    ← clean_eq_spell]

/-! ## Bytes

Which bytes a path has decides whether it can be a pattern without a character that has a meaning,
so they are followed through the shortest spelling. -/

/-- The bytes of a name are bytes of its path. -/
theorem mem_of_mem_names {path name : Bytes} {b : UInt8} (h : name ∈ names path) (hb : b ∈ name) :
    b ∈ path := by
  have hjoin := @Bytes.mem_joinWith_of_mem separator _ _ _ (List.mem_filter.1 h).1 hb
  rwa [Bytes.joinWith_splitOn] at hjoin

/-- Every byte but a separator belongs to a name. -/
theorem exists_mem_names {path : Bytes} {b : UInt8} (h : b ∈ path) (hb : b ≠ separator) :
    ∃ name ∈ names path, b ∈ name := by
  rw [← Bytes.joinWith_splitOn separator path] at h
  obtain ⟨word, hword, hmem⟩ := (Bytes.exists_mem_of_mem_joinWith h).resolve_left hb
  exact ⟨word, List.mem_filter.2 ⟨hword, decide_eq_true (List.ne_nil_of_mem hmem)⟩, hmem⟩

/-- A spelling has the bytes of its names, and dots and separators. -/
theorem mem_of_mem_spell {fromRoot : Bool} {ns : List Bytes} {b : UInt8}
    (h : b ∈ spell fromRoot ns) : b ∈ here ∨ b = separator ∨ ∃ n ∈ ns, b ∈ n := by
  rw [spell] at h
  split_ifs at h
  · exact .inr ((List.mem_cons.1 h).elim .inl Bytes.exists_mem_of_mem_joinWith)
  · exact .inl h
  · exact .inr (Bytes.exists_mem_of_mem_joinWith h)

/-- **But for dots and separators, the shortest spelling has only bytes of the path.** -/
theorem mem_of_mem_clean {path : Bytes} {b : UInt8} (h : b ∈ clean path) :
    b ∈ path ∨ b = separator ∨ b = 0x2e := by
  rw [clean_eq_spell] at h
  obtain hhere | hseparator | ⟨n, hn, hb⟩ := mem_of_mem_spell h
  · exact .inr (.inr (List.mem_singleton.1 hhere))
  · exact .inr (.inl hseparator)
  · obtain hn | rfl := mem_names_or_eq_above hn
    · exact .inl (mem_of_mem_names hn hb)
    · exact .inr (.inr (List.eq_of_mem_replicate (n := 2) hb))

/-! ## The last name -/

theorem Piece.base_eq {name : Bytes} (h : Piece name) : base name = name := by
  rw [base, h.names_eq]
  rfl

/-- The last name of a path that has one is whole. -/
theorem separator_not_mem_base {path : Bytes} (h : names path ≠ []) : separator ∉ base path := by
  rw [base, List.getLast?_eq_some_getLast h]
  exact (piece_of_mem_names (List.getLast_mem h)).whole

/-- **A path that goes on within its last name does not end in the path that it goes on from.** -/
theorem base_append_ne {more : Bytes} (hmore : Piece more) (path : Bytes) :
    base (path ++ more) ≠ path := by
  intro hbase
  obtain ⟨b, hb⟩ := List.exists_mem_of_ne_nil more hmore.ne_nil
  obtain ⟨name, hname, -⟩ := exists_mem_names (List.mem_append_right path hb)
    fun heq => hmore.whole (heq ▸ hb)
  have hwhole := separator_not_mem_base (List.ne_nil_of_mem hname)
  rw [hbase] at hwhole
  have hpiece : Piece (path ++ more) :=
    ⟨List.append_ne_nil_of_right_ne_nil path hmore.ne_nil,
      fun h => (List.mem_append.1 h).elim hwhole hmore.whole⟩
  rw [hpiece.base_eq] at hbase
  exact hmore.ne_nil (List.self_eq_append_right.1 hbase.symm)

end Path

end BraceBalance
