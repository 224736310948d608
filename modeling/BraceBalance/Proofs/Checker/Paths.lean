import BraceBalance.Proofs.Checker.Rules
import BraceBalance.Proofs.Path.Clean
import BraceBalance.Proofs.Path.Literal

/-!
# Proofs/Checker/Paths — which files a checker ignores

A checker asks three things of a pattern and a file, both in their shortest spelling: whether the
pattern matches the path, whether it matches the last name, and whether it is a directory above.
For a pattern without wildcards the first two are equalities (`Checker.covers_iff`), so it stands
for one path with all that is below it, and for one name wherever that is met.  A path that only
goes on within the last name of the pattern is neither (`Checker.not_covers_append`).
-/

namespace BraceBalance

/-- The shortest spelling of a literal pattern is literal. -/
theorem Glob.Literal.clean {pattern : Bytes} (h : Literal pattern) : Literal (Path.clean pattern) := by
  have hnot : ∀ b : UInt8, b ∉ pattern → b ≠ Path.separator → b ≠ 0x2e → b ∉ Path.clean pattern :=
    fun b hb hseparator hdot hmem =>
      (Path.mem_of_mem_clean hmem).elim hb fun hmem => hmem.elim hseparator hdot
  exact ⟨hnot _ h.star (by decide) (by decide), hnot _ h.question (by decide) (by decide),
    hnot _ h.bracket (by decide) (by decide), hnot _ h.backslash (by decide) (by decide)⟩

namespace Checker

variable {pattern path more : Bytes}

/-- A literal pattern covers itself, every path whose last name it is, and all that is below it. -/
theorem covers_iff (h : Glob.Literal pattern) :
    covers pattern path = true ↔
      path = pattern ∨ Path.base path = pattern ∨ pattern ++ [Path.separator] <+: path := by
  rw [covers, Bool.or_eq_true, Bool.or_eq_true, Bool.or_eq_true, Glob.matches?_of_literal h,
    Glob.matches?_of_literal h, beq_iff_eq, List.isPrefixOf_iff_prefix]
  tauto

theorem not_prefix_append (hmore : Path.Piece more) :
    ¬ pattern ++ [Path.separator] <+: pattern ++ more := by
  rw [List.prefix_append_right_inj]
  exact fun hstart => hmore.whole (hstart.subset (List.mem_singleton_self _))

/-- **A literal pattern does not cover what goes on within its last name.** -/
theorem not_covers_append (h : Glob.Literal pattern) (hmore : Path.Piece more) :
    covers pattern (pattern ++ more) = false := by
  rw [Bool.eq_false_iff, Ne, covers_iff h, not_or, not_or]
  refine ⟨fun heq => hmore.ne_nil (List.self_eq_append_right.1 heq.symm),
    Path.base_append_ne hmore pattern, not_prefix_append hmore⟩

/-- A new checker ignores what the patterns it is told cover. -/
theorem isIgnored_ignoring {options : Options} {rules : List (Bytes × Severity)} {c : Checker}
    (h : create options rules = .ok c) (ignored patterns : List Bytes) (file : Bytes) :
    (c.ignoring ignored patterns).isIgnored file = true ↔
      ∃ p ∈ patterns, covers (Path.clean p) (Path.clean file) = true := by
  rw [create] at h
  split_ifs at h
  obtain rfl := Except.ok.inj h
  rw [ignoring_eq, foldl_setRule_eq]
  simp [isIgnored, ruled]

end Checker

/-- **A literal pattern ignores one path with all below it, and one name wherever it is met.**  Take
a new checker with any rules that is told to ignore paths by patterns without wildcards.  It ignores
exactly the files that, in their shortest spelling, are such a pattern, end in one as their last
name, or lie below one.  So the spelling of the file makes no difference, nor do the order and the
repetition of the patterns; and a file is not below a pattern, nor ignored for it, if its path goes
on within the pattern's last name. -/
theorem literal_patterns_ignore_subtrees {options : Options} {rules : List (Bytes × Severity)}
    {c : Checker} (h : Checker.create options rules = .ok c) (ignored : List Bytes)
    {patterns : List Bytes} (hpatterns : ∀ p ∈ patterns, Glob.Literal p) :
    (∀ file, (c.ignoring ignored patterns).isIgnored file = true ↔
      ∃ p ∈ patterns, Path.clean file = Path.clean p ∨
        Path.base (Path.clean file) = Path.clean p ∨
        Path.clean p ++ [Path.separator] <+: Path.clean file) ∧
    (∀ file, (c.ignoring ignored patterns).isIgnored (Path.clean file) =
      (c.ignoring ignored patterns).isIgnored file) ∧
    (∀ others, (∀ p, p ∈ others ↔ p ∈ patterns) → ∀ file,
      (c.ignoring ignored others).isIgnored file =
        (c.ignoring ignored patterns).isIgnored file) ∧
    ∀ p ∈ patterns, ∀ file more, Path.Piece more → Path.clean file = Path.clean p ++ more →
      ¬ Path.clean p ++ [Path.separator] <+: Path.clean file ∧
        (c.ignoring ignored [p]).isIgnored file = false := by
  refine ⟨fun file => ?_, fun file => ?_, fun others hsame file => ?_,
    fun p hp file more hmore hfile => ⟨?_, ?_⟩⟩
  · rw [Checker.isIgnored_ignoring h]
    exact exists_congr fun p => and_congr_right fun hp => Checker.covers_iff (hpatterns p hp).clean
  · rw [Bool.eq_iff_iff, Checker.isIgnored_ignoring h, Checker.isIgnored_ignoring h,
      Path.clean_clean]
  · rw [Bool.eq_iff_iff, Checker.isIgnored_ignoring h, Checker.isIgnored_ignoring h]
    exact exists_congr fun p => and_congr_left' (hsame p)
  · exact hfile ▸ Checker.not_prefix_append hmore
  · rw [Bool.eq_false_iff, Ne, Checker.isIgnored_ignoring h, hfile]
    rintro ⟨q, hq, hcovers⟩
    rw [List.mem_singleton.1 hq, Checker.not_covers_append (hpatterns p hp).clean hmore] at hcovers
    exact Bool.false_ne_true hcovers

/-- With a directory ignored, in whatever spelling, a file in it is ignored and one in a directory
whose name goes on is not. -/
theorem literal_patterns_ignore_subtrees_vendor :
    ∃ c, Checker.create .standard [] = .ok c ∧
      (c.ignoring [] ["./vendor//"]).isIgnored "a/../vendor/b.js" = true ∧
      (c.ignoring [] ["./vendor//"]).isIgnored "vendor2" = false := by
  refine ⟨_, rfl, ?_⟩
  obtain ⟨hignored, -, -, hsibling⟩ := @literal_patterns_ignore_subtrees .standard [] _ rfl []
    ["./vendor//"] (by decide)
  refine ⟨(hignored _).2 ⟨_, List.mem_singleton_self _, .inr (.inr (by decide))⟩, ?_⟩
  exact (hsibling _ (List.mem_singleton_self _) _ [0x32] ⟨by decide, by decide⟩ (by decide)).2

end BraceBalance
