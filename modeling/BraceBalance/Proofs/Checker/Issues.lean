import BraceBalance.Command.Run
import BraceBalance.Proofs.Checker.Rules
import BraceBalance.Proofs.Scan.Layers
import Mathlib.Data.List.Basic

/-!
# Proofs/Checker/Issues — which problems of a source are shown

    verdict ──newest openers──▸ issues ──rules──▸ issues shown ──▸ status

A verdict with unmatched openers is cut down to the newest of them before the rules are asked, and
a scan leaves interpolations over braces.  So a problem whose rule is on is shown, with one
exception: if interpolations are silenced and there are enough of them to fill the list, the braces
below are not heard of (`exists_mem_drop_iff`).  What is shown makes a command fail that is to fail
on issues.
-/

namespace BraceBalance

theorem mem_drop_append_cons {α : Type} {before : List α} {k : Nat} (h : k ≤ before.length) (a : α)
    (after : List α) : a ∈ (before ++ a :: after).drop k := by
  rw [List.drop_append_of_le_length h]
  exact List.mem_append_right _ List.mem_cons_self

/-- Of openers that lie in layers, the `n` newest hold one that counts if any does, unless
interpolations do not count and there are `n` of them. -/
theorem exists_mem_drop_iff {braces interpolations : List Opener}
    (hb : ∀ o ∈ braces, o.kind = .brace) (hi : ∀ o ∈ interpolations, o.kind = .interpolation)
    {n : Nat} (hn : 0 < n) {Counts : Kind → Prop}
    (h : ∃ o ∈ braces ++ interpolations, Counts o.kind) :
    (∃ o ∈ (braces ++ interpolations).drop ((braces ++ interpolations).length - n),
        Counts o.kind) ↔
      ¬ (¬ Counts .interpolation ∧ n ≤ interpolations.length) := by
  constructor
  · rintro ⟨o, ho, hcounts⟩ ⟨hnot, hle⟩
    have hdrop : braces.length ≤ (braces ++ interpolations).length - n := by
      rw [List.length_append]
      omega
    rw [List.drop_append, List.drop_eq_nil_of_le hdrop, List.nil_append] at ho
    exact hnot (hi o (List.mem_of_mem_drop ho) ▸ hcounts)
  · intro hexcept
    by_cases hlast : Counts .interpolation ∧ interpolations ≠ []
    · -- The newest opener is an interpolation.
      obtain ⟨is, i, rfl⟩ := interpolations.eq_nil_or_concat'.resolve_left hlast.2
      rw [← List.append_assoc]
      refine ⟨i, mem_drop_append_cons ?_ i [], ?_⟩
      · rw [List.length_append, List.length_singleton]
        omega
      · rw [hi i (by simp)]
        exact hlast.1
    · -- The opener that counts is a brace, and fewer than `n` interpolations lie over it.
      obtain ⟨o, ho, hcounts⟩ := h
      have hbrace : o ∈ braces := by
        refine (List.mem_append.1 ho).resolve_right fun ho => hlast ⟨hi o ho ▸ hcounts, ?_⟩
        exact List.ne_nil_of_mem ho
      have hfew : interpolations.length < n := Nat.lt_of_not_le fun hmany => by
        have hsome : interpolations ≠ [] := List.ne_nil_of_length_pos (by omega)
        exact hexcept ⟨fun hc => hlast ⟨hc, hsome⟩, hmany⟩
      obtain ⟨bs, b, rfl⟩ := braces.eq_nil_or_concat'.resolve_left (List.ne_nil_of_mem hbrace)
      rw [List.append_assoc]
      refine ⟨b, mem_drop_append_cons ?_ b interpolations, ?_⟩
      · rw [List.length_append, List.length_append, List.length_singleton]
        omega
      · rw [hb b (by simp), ← hb o hbrace]
        exact hcounts

namespace Checker

/-- Without a cache a result is made of the verdict on its source. -/
theorem Yields.eq_result {c : Checker} {r : Result} (h : c.Yields r) (hcache : c.cache = none) :
    r = c.result r.filename r.source (scan r.source.raw) := by
  refine h.cases.resolve_right ?_
  rintro ⟨cache, -, hsome, -⟩
  exact absurd (hcache.symm.trans hsome) nofun

end Checker

/-! ## Failing on issues

The exit status depends on how many results have issues and on the flag. -/

/-- A result with issues counts as a problem. -/
theorem Output.problems_pos {r : Result} {results : List Result} (hr : r ∈ results)
    (h : r.issues ≠ []) : 0 < Output.problems results := by
  refine List.length_pos_of_mem (List.mem_filter.2 ⟨hr, ?_⟩)
  simpa [Result.hasIssues] using h

namespace Command.Task

/-- The results that a check of paths comes to and reports. -/
def Gathers (k : Task) (results : List Result) : Prop :=
  ∃ s c cached t out p, k.prepare = .ok (s, c) ∧ k.withCache c k.world.tree = .ok (cached, t) ∧
    k.withOutput t = .ok out ∧
    Batch.paths (fun c t file => c.run t k.world.now file) k.interruption s.extensions
      { checker := cached, tree := out } k.request.operands = (.ok results, p)

/-- **A check that is to fail on issues fails on them.** -/
theorem status_of_problems {k : Task} {results : List Result} (h : k.Gathers results)
    (hfail : k.request.given.fail = true) (hproblems : 0 < Output.problems results) :
    k.check.status = 1 := by
  obtain ⟨s, c, cached, t, out, p, hprepare, hcache, hout, hpaths⟩ := h
  have hchecked : ∃ o, k.checkPaths = .ok o ∧ o.status = 1 := by
    simp only [checkPaths, hprepare, hcache, hout, hpaths, bind, Except.bind, pure, Except.pure]
    cases Output.write k.request.given.format k.world.colour s.report results with
    | error f => exact ⟨_, rfl, rfl⟩
    | ok text => exact ⟨_, rfl, by simp [outcome, hfail, hproblems]⟩
  obtain ⟨o, ho, hstatus⟩ := hchecked
  rw [check]
  split_ifs
  · rfl
  · rw [ho]
    exact hstatus

end Command.Task

/-! ## What is shown -/

/-- **A problem whose rule is on is shown, unless silenced interpolations fill the list.**  Take any
checker that its options and rules allow, with any further rules ignored, and any result of it.  An
unexpected closing brace is an issue if its rule is on.  If some unmatched opener breaks a rule that
is on, there is an issue exactly when interpolations are not silenced or there are fewer of them
than openers listed.  Where there is an issue, results that hold this one count a problem, and a
check that comes to them and is to fail on issues ends with status one. -/
theorem unsilenced_problem_shown {options : Options} {rules : List (Bytes × Severity)} {c : Checker}
    (h : Checker.create options rules = .ok c) (ignored paths : List Bytes) {r : Result}
    (hr : (c.ignoring ignored paths).Yields r) :
    (r.verdict.kind = .unexpectedClosing → ¬ Silenced rules ignored Rule.unexpectedClosing →
      r.issues ≠ []) ∧
    (r.verdict.kind = .unmatchedOpen →
      (∃ o ∈ r.verdict.opened, ¬ Silenced rules ignored (Rule.ofKind o.kind)) →
      (r.issues ≠ [] ↔ ¬ (Silenced rules ignored Rule.unclosedInterpolation ∧
        options.tail.toInt ≤ r.verdict.opened.countP (·.kind = .interpolation)))) ∧
    (r.issues ≠ [] → ∀ results, r ∈ results → 0 < Output.problems results ∧
      ∀ k : Command.Task, k.Gathers results → k.request.given.fail = true → k.check.status = 1) := by
  obtain ⟨hoptions, hcache, htail, hsilenced⟩ := Checker.ignoring_of_create h ignored paths
  have hresult := hr.eq_result hcache
  have hverdict : r.verdict = scan r.source.raw := by rw [hresult]; rfl
  have hissues : r.issues ≠ [] ↔ ∃ issue ∈ Issue.ofVerdict r.filename r.verdict options,
      ¬ Silenced rules ignored issue.rule := by
    have hshown := (c.ignoring ignored paths).filterIssues_ne_nil_iff
      (Issue.ofVerdict r.filename r.verdict options)
    simp only [hsilenced] at hshown
    rw [← hshown, hverdict, ← hoptions]
    nth_rewrite 1 [hresult]
    rfl
  refine ⟨fun hkind hrule => ?_, fun hkind hopener => ?_, fun hshown results hmem => ?_⟩
  · rw [hissues]
    exact ⟨_, by rw [Issue.ofVerdict, hkind]; exact List.mem_singleton_self _, hrule⟩
  · obtain ⟨braces, interpolations, hopened, hb, hi, hcount⟩ := scan_opened_layers r.source.raw
    rw [← hverdict] at hopened hcount
    have hlisted : (∃ issue ∈ Issue.ofVerdict r.filename r.verdict options,
        ¬ Silenced rules ignored issue.rule) ↔
        ∃ o ∈ r.verdict.opened.drop (r.verdict.opened.length - options.tail.toInt.toNat),
          ¬ Silenced rules ignored (Rule.ofKind o.kind) := by
      rw [Issue.ofVerdict, hkind]
      constructor
      · rintro ⟨issue, hissue, hrule⟩
        obtain ⟨o, ho, rfl⟩ := List.mem_map.1 hissue
        exact ⟨o, ho, hrule⟩
      · rintro ⟨o, ho, hrule⟩
        exact ⟨_, List.mem_map_of_mem ho, hrule⟩
    rw [hopened] at hopener
    have hnewest := @exists_mem_drop_iff _ _ hb hi options.tail.toInt.toNat (by omega)
      (fun kind => ¬ Silenced rules ignored (Rule.ofKind kind)) hopener
    rw [hissues, hlisted, hcount, hopened, hnewest, not_not, Int.toNat_le]
    rfl
  · have hproblems := Output.problems_pos hmem hshown
    exact ⟨hproblems, fun k hk hfail => Command.Task.status_of_problems hk hfail hproblems⟩

/-- With closing braces ignored, an open brace in a file is shown, and a check of the file fails. -/
theorem unsilenced_problem_shown_brace :
    ∃ k, Command.Task.ofArgs { tree := FileTree.empty.set ["work", "a"] (.file [0x7b]) }
        ["--fail", "--ignore", "unexpected-closing-brace", "a"] = .ok k ∧
      ∃ c, Checker.create .standard Settings.standard.rules = .ok c ∧
        ∃ r, (c.ignoring [Rule.unexpectedClosing] []).Yields r ∧ r.issues ≠ [] ∧ k.Gathers [r] ∧
          k.check.status = 1 := by
  refine ⟨_, rfl, _, rfl, _,
    .inr ⟨FileTree.empty.set ["work", "a"] (.file [0x7b]), 0, "a", rfl⟩, ?_⟩
  obtain ⟨-, hopened, hfails⟩ := @unsilenced_problem_shown .standard Settings.standard.rules _ rfl
    [Rule.unexpectedClosing] [] _
    (.inr ⟨FileTree.empty.set ["work", "a"] (.file [0x7b]), 0, "a", rfl⟩)
  have hissues := (hopened rfl ⟨⟨⟨1, 1⟩, .brace⟩, by decide, by decide⟩).2 (by decide)
  obtain ⟨-, hstatus⟩ := hfails hissues _ (List.mem_singleton_self _)
  refine ⟨hissues, ⟨_, _, _, _, _, _, rfl, rfl, rfl, rfl⟩, hstatus _ ?_ rfl⟩
  exact ⟨_, _, _, _, _, _, rfl, rfl, rfl, rfl⟩

/-- A brace that is not silenced, below as many interpolations as are listed: no issue is left, and
a check that is to fail on issues does not. -/
theorem brace_hidden_below_interpolations :
    ∃ src c r, Checker.create .standard [] = .ok c ∧
      ((c.ignoring [Rule.unclosedInterpolation] []).runSource src).1 = r ∧
      r.verdict.kind = .unmatchedOpen ∧
      (∃ o ∈ r.verdict.opened, ¬ Silenced [] [Rule.unclosedInterpolation] (Rule.ofKind o.kind)) ∧
      r.issues = [] ∧
      ∃ k, Command.Task.ofArgs { tree := FileTree.empty.set ["work", "a"] (.file src) }
        ["--fail", "--ignore", "unclosed-interpolation", "a"] = .ok k ∧ k.check.status = 0 := by
  exact ⟨[0x7b, 0x60] ++ (List.replicate 8 [0x24, 0x7b]).flatten, _, _, rfl, rfl, by decide,
    ⟨⟨⟨1, 1⟩, .brace⟩, by decide, by decide⟩, by decide, _, rfl, by decide +kernel⟩

end BraceBalance
