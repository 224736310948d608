import BraceBalance.Proofs.Checker.Run
import Mathlib.Data.List.Basic
import Mathlib.Tactic.SplitIfs

/-!
# Proofs/Checker/Rules — what the rules of a checker do to its results

    verdict ──report──▸ issues ──rules──▸ issues shown

The rules that are set, in whatever order, come to a list of severities and a list of ignored rules
(`foldl_setRule_eq`).  Nothing else of a checker depends on them, and it reads them in one place
only: so a check with other lists goes on as before and shows other issues (`follows_ruled`).  Which
ones, can be read off the rules that were set (`filterIssues_eq_shown`).
-/

namespace BraceBalance

/-- A rule is off, or it is ignored. -/
def Silenced (rules : List (Bytes × Severity)) (ignored : List Bytes) (rule : Bytes) : Prop :=
  (rule, .off) ∈ rules ∨ rule ∈ ignored

instance (rules : List (Bytes × Severity)) (ignored : List Bytes) (rule : Bytes) :
    Decidable (Silenced rules ignored rule) :=
  inferInstanceAs (Decidable (_ ∨ _))

/-- The issues that are shown: those of silenced rules are left out, and the others have the
severity set for their rule, if one is. -/
def shown (rules : List (Bytes × Severity)) (ignored : List Bytes) (issues : List Issue) :
    List Issue :=
  (issues.filter fun issue => ¬ Silenced rules ignored issue.rule).map fun issue =>
    { issue with severity := (rules.lookup issue.rule).getD issue.severity }

namespace Checker

variable (c : Checker) (severities : List (Bytes × Severity)) (ignoredRules : List Bytes)

/-! ## Rules of a checker

A checker keeps its rules in two places, the severities that are set and the rules that are ignored,
and setting a rule off goes to the second one. -/

/-- The checker with these severities and ignored rules instead of its own. -/
def ruled : Checker := { c with severities, ignoredRules }

theorem setRule_eq (entry : Bytes × Severity) :
    c.setRule entry =
      if entry.2 = .off then c.ruled c.severities (c.ignoredRules ++ [entry.1])
      else c.ruled (entry :: c.severities) c.ignoredRules := rfl

/-- **What rules come to.**  Those that are off are ignored, and the others have severities. -/
theorem foldl_setRule_eq (rules : List (Bytes × Severity)) :
    rules.foldl setRule c =
      c.ruled ((rules.filter (·.2 ≠ .off)).reverse ++ c.severities)
        (c.ignoredRules ++ (rules.filter (·.2 = .off)).map Prod.fst) := by
  induction rules generalizing c with
  | nil => simp [ruled]
  | cons entry rules ih =>
    rw [List.foldl_cons, ih, setRule_eq]
    by_cases hoff : entry.2 = .off <;> simp [hoff, ruled]

/-- Rules are ignored one after the other. -/
theorem foldl_ignoreRule_eq (rules : List Bytes) :
    rules.foldl ignoreRule c = { c with ignoredRules := c.ignoredRules ++ rules } := by
  induction rules generalizing c with
  | nil => simp
  | cons rule rules ih =>
    rw [List.foldl_cons, ih]
    simp [ignoreRule]

theorem foldl_ignorePath_eq (paths : List Bytes) :
    paths.foldl ignorePath c =
      { c with ignoredPaths := c.ignoredPaths ++ paths.map Path.clean } := by
  induction paths generalizing c with
  | nil => simp
  | cons path paths ih =>
    rw [List.foldl_cons, ih]
    simp [ignorePath]

/-- Rules and paths are added to those that are ignored. -/
theorem ignoring_eq (rules paths : List Bytes) :
    c.ignoring rules paths =
      { c with
        ignoredRules := c.ignoredRules ++ rules
        ignoredPaths := c.ignoredPaths ++ paths.map Path.clean } := by
  rw [ignoring, foldl_ignoreRule_eq, foldl_ignorePath_eq]

variable {c}

/-- A rule is ignored if it was, or if it is set off once. -/
theorem mem_ignoredRules_foldl_setRule {rules : List (Bytes × Severity)} {rule : Bytes} :
    rule ∈ (rules.foldl setRule c).ignoredRules ↔ rule ∈ c.ignoredRules ∨ (rule, .off) ∈ rules := by
  simp [foldl_setRule_eq, ruled]

/-- **What a new checker with further rules and paths ignored is like.** -/
theorem ignoring_of_create {options : Options} {rules : List (Bytes × Severity)} {c : Checker}
    (h : create options rules = .ok c) (ignored paths : List Bytes) :
    (c.ignoring ignored paths).options = options ∧ (c.ignoring ignored paths).cache = none ∧
      0 < options.tail.toInt ∧
      ∀ rule, rule ∈ (c.ignoring ignored paths).ignoredRules ↔ Silenced rules ignored rule := by
  rw [create] at h
  split_ifs at h with haccepted
  obtain rfl := Except.ok.inj h
  have htail : 0 < options.tail := by
    simp only [Options.accepted, Bool.and_eq_true, decide_eq_true_eq] at haccepted
    exact haccepted.1.1
  rw [ignoring_eq]
  refine ⟨by rw [foldl_setRule_eq]; rfl, by rw [foldl_setRule_eq]; rfl,
    by simpa using Int64.lt_iff_toInt_lt.1 htail, fun rule => ?_⟩
  simp [mem_ignoredRules_foldl_setRule, Silenced]

/-! ## Issues that are left -/

/-- An issue is left if the rule of one is not ignored. -/
theorem filterIssues_ne_nil_iff (c : Checker) (issues : List Issue) :
    c.filterIssues issues ≠ [] ↔ ∃ issue ∈ issues, issue.rule ∉ c.ignoredRules := by
  simp [filterIssues, List.filter_eq_nil_iff]

/-- A checker shows what the rules say if it ignores those that are silenced and keeps the
severities of all others. -/
theorem filterIssues_eq_shown {rules : List (Bytes × Severity)} {ignored : List Bytes}
    (hignored : ∀ rule, rule ∈ c.ignoredRules ↔ Silenced rules ignored rule)
    (hset : ∀ rule, ¬ Silenced rules ignored rule →
      c.severities.lookup rule = rules.lookup rule) (issues : List Issue) :
    c.filterIssues issues = shown rules ignored issues := by
  have hkept : (fun issue : Issue => !c.ignoredRules.contains issue.rule) =
      fun issue => decide (¬ Silenced rules ignored issue.rule) := by
    funext issue
    simp [hignored]
  rw [filterIssues, shown, hkept]
  refine List.map_congr_left fun issue hissue => ?_
  rw [hset _ (of_decide_eq_true (List.mem_filter.1 hissue).2)]

/-- The severities kept of rules that are set are theirs, but for rules that are off. -/
theorem lookup_severities {rules : List (Bytes × Severity)} (h : (rules.map Prod.fst).Nodup)
    {rule : Bytes} (hrule : (rule, .off) ∉ rules) :
    (rules.filter (·.2 ≠ .off)).reverse.lookup rule = rules.lookup rule := by
  refine lookup_congr ?_ h fun severity => ?_
  · rw [List.map_reverse, List.nodup_reverse]
    exact h.sublist (List.filter_sublist.map _)
  · rw [List.mem_reverse, List.mem_filter, and_iff_left_iff_imp]
    intro hmem
    exact decide_eq_true fun hoff => hrule (hoff ▸ hmem)

end Checker

/-! ## Rules in another order, or told in another way

Both come down to the same two facts: which rules are silenced, and which severities the others
have. -/

/-- What is shown depends on which rules are silenced and on the severities of the others. -/
theorem shown_congr {rules others : List (Bytes × Severity)} {ignored more : List Bytes}
    (hsilenced : ∀ rule, Silenced others more rule ↔ Silenced rules ignored rule)
    (hset : ∀ rule, ¬ Silenced rules ignored rule → others.lookup rule = rules.lookup rule)
    (issues : List Issue) : shown others more issues = shown rules ignored issues := by
  simp only [shown, hsilenced]
  refine List.map_congr_left fun issue hissue => ?_
  rw [hset _ (of_decide_eq_true (List.mem_filter.1 hissue).2)]

/-- The order in which rules are told does not matter. -/
theorem shown_perm {rules others : List (Bytes × Severity)} (h : (rules.map Prod.fst).Nodup)
    (hperm : others.Perm rules) {ignored more : List Bytes}
    (hsame : ∀ rule, rule ∈ more ↔ rule ∈ ignored) (issues : List Issue) :
    shown others more issues = shown rules ignored issues := by
  have hothers : (others.map Prod.fst).Nodup := (hperm.map Prod.fst).nodup_iff.2 h
  refine shown_congr (fun rule => ?_) (fun rule _ => ?_) issues
  · rw [Silenced, Silenced, hperm.mem_iff, hsame]
  · exact lookup_congr hothers h fun severity => hperm.mem_iff

/-- To set a rule off is to ignore it, whatever was set for it. -/
theorem shown_off (rules : List (Bytes × Severity)) (ignored : List Bytes) (rule : Bytes)
    (issues : List Issue) :
    shown ((rule, .off) :: rules.filter (·.1 ≠ rule)) ignored issues =
      shown rules (rule :: ignored) issues := by
  refine shown_congr (fun other => ?_) (fun other hother => ?_) issues
  · by_cases heq : other = rule
    · simp [Silenced, heq]
    · simp [Silenced, heq]
  · have hne : other ≠ rule := fun heq => hother (.inr (heq ▸ List.mem_cons_self))
    rw [List.lookup_cons, beq_false_of_ne hne]
    exact lookup_filter_ne hne rules

namespace Checker

variable (c : Checker) {severities : List (Bytes × Severity)} {ignoredRules : List Bytes}

/-! ## Checks with other rules -/

/-- What a check of a file leaves is what another one leaves, but for the result: it is what `f`
makes of the other's. -/
def Checked.Follows (d c : Checked) (f : Result → Result) : Prop :=
  d.answer = c.answer.map (Option.map f) ∧ d.log = c.log ∧ d.tree = c.tree ∧
    d.checker.cache = c.checker.cache

/-- A checker checks as another one does, but for its results: they are what `f` makes of the
other's. -/
structure Follows (d c : Checker) (f : Result → Result) : Prop where
  runSource : ∀ content, d.runSource content = (f (c.runSource content).1, (c.runSource content).2)
  run : ∀ t now file, (d.run t now file).Follows (c.run t now file) f

/-- A look-up does not read the rules. -/
theorem lookup_ruled (now : Int) (file : Bytes) (source : Source) :
    (c.ruled severities ignoredRules).lookup now file source =
      ((c.lookup now file source).1,
        (c.lookup now file source).2.ruled severities ignoredRules) := by
  obtain ⟨options, _, _, paths, _ | cache⟩ := c <;> rfl

/-- Storing a verdict does not read the rules. -/
theorem store_ruled (t : FileTree) (now : Int) (file : Bytes) (source : Source)
    (verdict : Verdict) :
    (c.ruled severities ignoredRules).store t now file source verdict =
      ((c.store t now file source verdict).1,
        (c.store t now file source verdict).2.1.ruled severities ignoredRules,
        (c.store t now file source verdict).2.2) := by
  obtain ⟨options, _, _, paths, _ | cache⟩ := c
  · rfl
  · rcases hwritten : (cache.set t now file source.raw verdict).2 with failure | tree <;>
      simp only [store, ruled, hwritten]

section

variable {c} {f : List Issue → List Issue}
  (h : ∀ issues, (c.ruled severities ignoredRules).filterIssues issues =
    f (c.filterIssues issues))

include h

theorem result_ruled (file : Bytes) (source : Source) (verdict : Verdict) :
    (c.ruled severities ignoredRules).result file source verdict =
      { c.result file source verdict with issues := f (c.result file source verdict).issues } :=
  congrArg (Result.mk file verdict · source false) (h _)

/-- Checking what was read is the same with other rules, but for the issues. -/
theorem runRead_ruled (t : FileTree) (now : Int) (file : Bytes) (source : Source) :
    ((c.ruled severities ignoredRules).runRead t now file source).Follows
      (c.runRead t now file source) fun r => { r with issues := f r.issues } := by
  rw [runRead, runRead, lookup_ruled]
  rcases c.lookup_cases now file source with
    ⟨cache, r, -, -, -, hlookup⟩ | ⟨rest, hlookup, -⟩
  · rw [hlookup]
    dsimp only
    rw [result_ruled h]
    exact ⟨rfl, rfl, rfl, rfl⟩
  · rw [hlookup]
    dsimp only
    rw [store_ruled, store_checker]
    refine ⟨?_, rfl, rfl, rfl⟩
    exact congrArg (fun r => Except.ok (some r)) (result_ruled h file source (scan source.raw))

/-- **A check reads the rules only to filter its issues.** -/
theorem follows_ruled :
    (c.ruled severities ignoredRules).Follows c fun r => { r with issues := f r.issues } where
  runSource content := Prod.ext (result_ruled h [] _ _) rfl
  run t now file := by
    have hruled : (c.ruled severities ignoredRules).isIgnored file = c.isIgnored file := rfl
    rw [run, run, hruled]
    split_ifs
    · exact ⟨rfl, rfl, rfl, rfl⟩
    · rcases t.read file with e | content
      · exact ⟨rfl, rfl, rfl, rfl⟩
      · exact runRead_ruled h t now file (Source.ofContent content)

end

/-! ## Checkers set up with rules -/

/-- The checker with these options and severities of rules that ignores these rules and paths too,
with or without a cache. -/
def setUp (options : Options) (rules : List (Bytes × Severity)) (ignored paths : List Bytes)
    (cache : Option Cache) : Except Failure Checker :=
  (create options rules).map fun c => { c.ignoring ignored paths with cache }

section

variable {options : Options} {rules others : List (Bytes × Severity)}
  {ignored more paths : List Bytes} {cache : Option Cache} {c d : Checker}

/-- A checker that is set up ignores the rules that are off and those it is told to, and has the
severities of the others. -/
theorem setUp_eq (haccepted : options.accepted = true) (rules : List (Bytes × Severity))
    (ignored paths : List Bytes) (cache : Option Cache) :
    setUp options rules ignored paths cache =
      .ok (({ options, ignoredPaths := paths.map Path.clean, cache } : Checker).ruled
        (rules.filter (·.2 ≠ .off)).reverse
        ((rules.filter (·.2 = .off)).map Prod.fst ++ ignored)) := by
  rw [setUp, create, if_pos haccepted, Except.map, foldl_setRule_eq, ignoring_eq]
  simp [ruled]

/-- What checkers that are set up show is told by their rules. -/
theorem filterIssues_of_setUp (haccepted : options.accepted = true)
    (hset : setUp options rules ignored paths cache = .ok c) (hrules : (rules.map Prod.fst).Nodup)
    (issues : List Issue) : c.filterIssues issues = shown rules ignored issues := by
  obtain rfl := Except.ok.inj ((setUp_eq haccepted rules ignored paths cache).symm.trans hset)
  have hignored : ∀ rule, rule ∈ (rules.filter (·.2 = .off)).map Prod.fst ++ ignored ↔
      Silenced rules ignored rule := by
    simp [Silenced]
  refine filterIssues_eq_shown hignored (fun rule hrule => ?_) issues
  exact lookup_severities hrules fun hoff => hrule (.inl hoff)

/-- Checkers that differ in their rules follow each other, with the issues that they show. -/
theorem follows_of_setUp (haccepted : options.accepted = true)
    (hc : setUp options rules ignored paths cache = .ok c) (hrules : (rules.map Prod.fst).Nodup)
    (hd : setUp options others more paths cache = .ok d) (hothers : (others.map Prod.fst).Nodup)
    {f : List Issue → List Issue}
    (h : ∀ issues, shown others more issues = f (shown rules ignored issues)) :
    d.Follows c fun r => { r with issues := f r.issues } := by
  have hissues : ∀ issues, d.filterIssues issues = f (c.filterIssues issues) := fun issues => by
    rw [filterIssues_of_setUp haccepted hd hothers, filterIssues_of_setUp haccepted hc hrules, h]
  have hruled : c.ruled d.severities d.ignoredRules = d := by
    obtain rfl := Except.ok.inj ((setUp_eq haccepted rules ignored paths cache).symm.trans hc)
    obtain rfl := Except.ok.inj ((setUp_eq haccepted others more paths cache).symm.trans hd)
    rfl
  rw [← hruled] at hissues ⊢
  exact follows_ruled hissues

end

end Checker

theorem shown_nil (issues : List Issue) : shown [] [] issues = issues := by
  simp [shown, Silenced]

/-- **Rules filter issues and do nothing else, in whatever order they are told.**  A checker that is
set up with rules for a map of severities and any rules to ignore checks every source as one without
rules does, with the same verdicts; of the issues, which without rules are all those of the verdict,
it shows those whose rule is neither off nor ignored, in their order, each with the severity set for
its rule.  The same map in another order, and the same ignored rules in another order or told
repeatedly, make no difference; nor does it matter whether a rule is set off, in place of what was
set for it, or ignored besides. -/
theorem rules_only_filter_issues {options : Options} (haccepted : options.accepted = true)
    {rules : List (Bytes × Severity)} (hrules : (rules.map Prod.fst).Nodup)
    (ignored paths : List Bytes) (cache : Option Cache) :
    ∃ bare c, Checker.setUp options [] [] paths cache = .ok bare ∧
      Checker.setUp options rules ignored paths cache = .ok c ∧
      (∀ r, bare.Yields r → r.issues = Issue.ofVerdict r.filename r.verdict options) ∧
      (c.Follows bare fun r => { r with issues := shown rules ignored r.issues }) ∧
      (∀ others more, others.Perm rules → (∀ rule, rule ∈ more ↔ rule ∈ ignored) →
        ∃ d, Checker.setUp options others more paths cache = .ok d ∧ d.Follows c id) ∧
      ∀ rule, ∃ off told,
        Checker.setUp options ((rule, .off) :: rules.filter (·.1 ≠ rule)) ignored paths cache =
          .ok off ∧
        Checker.setUp options rules (rule :: ignored) paths cache = .ok told ∧
        off.Follows told id := by
  have hbare := Checker.setUp_eq haccepted [] [] paths cache
  have hc := Checker.setUp_eq haccepted rules ignored paths cache
  refine ⟨_, _, hbare, hc, fun r hr => ?_, ?_, fun others more hperm hsame => ?_, fun rule => ?_⟩
  · rw [hr.issues_eq, Checker.filterIssues_of_setUp haccepted hbare .nil, shown_nil]
    rfl
  · exact Checker.follows_of_setUp haccepted hbare .nil hc hrules fun issues => by rw [shown_nil]
  · have hothers : (others.map Prod.fst).Nodup := (hperm.map Prod.fst).nodup_iff.2 hrules
    have hd := Checker.setUp_eq haccepted others more paths cache
    have hshown : ∀ issues, shown others more issues = id (shown rules ignored issues) :=
      shown_perm hrules hperm hsame
    exact ⟨_, hd, Checker.follows_of_setUp haccepted hc hrules hd hothers hshown⟩
  · have hreset : (((rule, Severity.off) :: rules.filter (·.1 ≠ rule)).map Prod.fst).Nodup := by
      rw [List.map_cons, List.nodup_cons]
      refine ⟨?_, hrules.sublist (List.filter_sublist.map _)⟩
      simp
    have hoff := Checker.setUp_eq haccepted ((rule, .off) :: rules.filter (·.1 ≠ rule)) ignored
      paths cache
    have htold := Checker.setUp_eq haccepted rules (rule :: ignored) paths cache
    have hshown : ∀ issues, shown ((rule, .off) :: rules.filter (·.1 ≠ rule)) ignored issues =
        id (shown rules (rule :: ignored) issues) :=
      shown_off rules ignored rule
    exact ⟨_, _, hoff, htold, Checker.follows_of_setUp haccepted htold hrules hoff hreset hshown⟩

/-- An open brace and an open interpolation, where interpolations are off and open braces are to be
warned of: both openers are in the verdict, and one warning is shown. -/
theorem rules_only_filter_issues_warning :
    ∃ c, Checker.setUp .standard
        [(Rule.unclosedInterpolation, .off), (Rule.unmatchedOpen, .warning)] [] [] none = .ok c ∧
      (c.runSource [0x7b, 0x60, 0x24, 0x7b]).1.verdict.opened =
        [⟨⟨1, 1⟩, .brace⟩, ⟨⟨1, 3⟩, .interpolation⟩] ∧
      (c.runSource [0x7b, 0x60, 0x24, 0x7b]).1.issues.map (fun i => (i.rule, i.severity)) =
        [(Rule.unmatchedOpen, .warning)] := by
  obtain ⟨bare, c, hbare, hc, -, hfollows, -, -⟩ := @rules_only_filter_issues .standard (by decide)
    [(Rule.unclosedInterpolation, .off), (Rule.unmatchedOpen, .warning)] (by decide) [] [] none
  obtain rfl := Except.ok.inj hbare
  refine ⟨c, hc, ?_⟩
  rw [hfollows.runSource]
  exact ⟨by decide, by decide⟩

end BraceBalance
