import BraceBalance.Checker
import BraceBalance.Proofs.Lookup

/-!
# Proofs/Checker/Run — what checking a file comes to

A file is ignored, cannot be read, or is checked (`run_cases`).  If it is checked, the verdict comes
from a record on the same digest, which changes nothing, or from a scan, and then the cache gains a
record and perhaps loses some (`runRead_cases`).
-/

namespace BraceBalance

namespace Cache

theorem drop_records_subset (c : Cache) (name : Bytes) : (c.drop name).records ⊆ c.records :=
  fun _ he => (List.mem_filter.1 he).1

/-- A record is found for a file and its source, or the cache is left with fewer records. -/
theorem get_cases (c : Cache) (now : Int) (name content : Bytes) :
    (∃ r, (name, r) ∈ c.records ∧ r.digest = content.digest ∧
        c.get now name content = (some r.verdict, c)) ∨
      ∃ kept, kept ⊆ c.records ∧ c.get now name content = (none, { c with records := kept }) := by
  rw [get]
  cases hlookup : c.records.lookup name with
  | none => exact .inr ⟨c.records, List.Subset.refl _, rfl⟩
  | some r =>
    by_cases hfresh : c.fresh now content r = true
    · have hdigest : r.digest = content.digest := by
        rw [fresh, Bool.and_eq_true] at hfresh
        exact eq_of_beq hfresh.2
      exact .inl ⟨r, mem_of_lookup hlookup, hdigest, if_pos hfresh⟩
    · exact .inr ⟨_, c.drop_records_subset name, if_neg hfresh⟩

end Cache

namespace Checker

/-- A verdict is kept in memory whether or not it could be written. -/
theorem store_checker (c : Checker) (t : FileTree) (now : Int) (file : Bytes) (source : Source)
    (verdict : Verdict) :
    (c.store t now file source verdict).2.1 =
      { c with cache := c.cache.map (·.put file ⟨source.raw.digest, verdict, now⟩) } := by
  obtain ⟨options, severities, rules, paths, _ | cache⟩ := c
  · rfl
  · cases hwritten : (cache.set t now file source.raw verdict).2 with
    | ok tree => simp only [store, hwritten]; rfl
    | error failure => simp only [store, hwritten]; rfl

/-- A verdict is found in the cache, on the same digest, or the cache is left with fewer records. -/
theorem lookup_cases (c : Checker) (now : Int) (file : Bytes) (source : Source) :
    (∃ cache r, c.cache = some cache ∧ (file, r) ∈ cache.records ∧
        r.digest = source.raw.digest ∧ c.lookup now file source = (some r.verdict, c)) ∨
      ∃ rest : Option Cache, c.lookup now file source = (none, { c with cache := rest }) ∧
        ∀ left ∈ rest, ∃ cache ∈ c.cache, left.records ⊆ cache.records := by
  obtain ⟨options, severities, rules, paths, _ | cache⟩ := c
  · exact .inr ⟨none, rfl, nofun⟩
  · rcases cache.get_cases now file source.raw with ⟨r, hr, hdigest, hget⟩ | ⟨kept, hkept, hget⟩
    · refine .inl ⟨cache, r, rfl, hr, hdigest, ?_⟩
      simp only [lookup, hget]
    · refine .inr ⟨some { cache with records := kept }, ?_, fun left hleft => ?_⟩
      · simp only [lookup, hget]
      · obtain rfl := Option.mem_some.1 hleft
        exact ⟨cache, rfl, hkept⟩

/-- The verdict comes from a record on the same digest, or from a scan, and then it is stored if
there is a cache. -/
theorem runRead_cases (c : Checker) (t : FileTree) (now : Int) (file : Bytes) (source : Source) :
    (∃ cache r, c.cache = some cache ∧ (file, r) ∈ cache.records ∧
        r.digest = source.raw.digest ∧
        (c.runRead t now file source).answer =
          .ok (some { c.result file source r.verdict with cached := true }) ∧
        (c.runRead t now file source).checker = c) ∨
      (c.runRead t now file source).answer =
          .ok (some (c.result file source (scan source.raw))) ∧
        ∀ stored ∈ (c.runRead t now file source).checker.cache, ∃ cache ∈ c.cache,
          ∃ kept ⊆ cache.records,
            stored.records = (file, ⟨source.raw.digest, scan source.raw, now⟩) :: kept := by
  rcases c.lookup_cases now file source with
    ⟨cache, r, hcache, hr, hdigest, hlookup⟩ | ⟨rest, hlookup, hrest⟩
  · refine .inl ⟨cache, r, hcache, hr, hdigest, ?_⟩
    simp only [runRead, hlookup, and_self]
  · right
    simp only [runRead, hlookup, store_checker]
    refine ⟨rfl, fun stored hstored => ?_⟩
    obtain ⟨left, hleft, rfl⟩ := Option.map_eq_some_iff.1 hstored
    obtain ⟨cache, hcache, hsub⟩ := hrest left hleft
    exact ⟨cache, hcache, _, fun _ he => hsub (left.drop_records_subset file he), rfl⟩

/-- A file that is not ignored and can be read is checked by its source. -/
theorem run_of_read {c : Checker} {t : FileTree} {file content : Bytes}
    (hignored : c.isIgnored file = false) (hread : t.read file = .ok content) (now : Int) :
    c.run t now file = c.runRead t now file (Source.ofContent content) := by
  simp only [run, hignored, hread, Bool.false_eq_true, if_false]

/-- A file is ignored, cannot be read, or is checked. -/
theorem run_cases (c : Checker) (t : FileTree) (now : Int) (file : Bytes) :
    c.isIgnored file = true ∧ c.run t now file =
        { answer := .ok none, log := [.ignored file], checker := c, tree := t } ∨
      (∃ e, c.isIgnored file = false ∧ t.read file = .error e ∧ c.run t now file =
        { answer := .error (.path .readingFile e), log := [], checker := c, tree := t }) ∨
      ∃ content, c.isIgnored file = false ∧ t.read file = .ok content ∧
        c.run t now file = c.runRead t now file (Source.ofContent content) := by
  cases hignored : c.isIgnored file with
  | true => exact .inl ⟨rfl, by rw [run, if_pos hignored]⟩
  | false =>
    cases hread : t.read file with
    | error e =>
      refine .inr (.inl ⟨e, rfl, rfl, ?_⟩)
      simp only [run, hignored, hread, Bool.false_eq_true, if_false]
    | ok content => exact .inr (.inr ⟨content, rfl, rfl, run_of_read hignored hread now⟩)

/-- A file that is not ignored and can be read has a result, on the source that was read; without a
cache its verdict is that of a scan. -/
theorem exists_answer_of_read {c : Checker} {t : FileTree} {file content : Bytes}
    (hignored : c.isIgnored file = false) (hread : t.read file = .ok content) (now : Int) :
    ∃ r, (c.run t now file).answer = .ok (some r) ∧ r.filename = file ∧
      r.source = Source.ofContent content ∧
      (c.cache = none →
        r = c.result file (Source.ofContent content) (scan (Source.ofContent content).raw)) := by
  rw [run_of_read hignored hread]
  rcases c.runRead_cases t now file (Source.ofContent content) with
    ⟨cache, r, hcache, -, -, hanswer, -⟩ | ⟨hanswer, -⟩
  · refine ⟨_, hanswer, rfl, rfl, fun hnone => ?_⟩
    exact absurd (hcache.symm.trans hnone) (Option.some_ne_none cache)
  · exact ⟨_, hanswer, rfl, rfl, fun _ => rfl⟩

/-- A result that a checker gives for a source in memory or for a file. -/
def Yields (c : Checker) (r : Result) : Prop :=
  (∃ content, (c.runSource content).1 = r) ∨
    ∃ t now file, (c.run t now file).answer = .ok (some r)

/-- A result is made of the verdict on its source, or of a verdict from a cache. -/
theorem Yields.cases {c : Checker} {r : Result} (h : c.Yields r) :
    r = c.result r.filename r.source (scan r.source.raw) ∨
      ∃ cache verdict, c.cache = some cache ∧
        r = { c.result r.filename r.source verdict with cached := true } := by
  rcases h with ⟨content, rfl⟩ | ⟨t, now, file, h⟩
  · exact .inl rfl
  · rcases c.run_cases t now file with ⟨-, hrun⟩ | ⟨e, -, -, hrun⟩ | ⟨content, -, -, hrun⟩
    · rw [hrun] at h
      cases h
    · rw [hrun] at h
      cases h
    · rw [hrun] at h
      rcases c.runRead_cases t now file (Source.ofContent content) with
        ⟨cache, record, hcache, -, -, hanswer, -⟩ | ⟨hanswer, -⟩
      · obtain rfl := Option.some.inj (Except.ok.inj (hanswer.symm.trans h))
        exact .inr ⟨cache, record.verdict, hcache, rfl⟩
      · obtain rfl := Option.some.inj (Except.ok.inj (hanswer.symm.trans h))
        exact .inl rfl

/-- The issues of a result are those of its verdict that are left. -/
theorem Yields.issues_eq {c : Checker} {r : Result} (h : c.Yields r) :
    r.issues = c.filterIssues (Issue.ofVerdict r.filename r.verdict c.options) := by
  rcases h.cases with hr | ⟨cache, verdict, -, hr⟩
  · rw [hr]
    rfl
  · rw [hr]
    rfl

end Checker

end BraceBalance
