import BraceBalance.Proofs.Checker.Run
import BraceBalance.Proofs.FileTree.Resolution

/-!
# Proofs/Checker/Records — a check through the records of its cache

Of its checker a check changes the records of the cache and nothing else, so the checkers of a run
are all `c.holding records`.  A look-up depends on the one record of the file (`lookup_holding`), and
a miss drops it; a verdict that is stored is put in front and all records are written down
(`store_holding`), which does away with what was written before (`flushed_flushed`).
-/

namespace BraceBalance

namespace Checker

variable (c : Checker)

/-- The checker with these records in its cache, if it has one. -/
def holding (records : Records) : Checker := { c with cache := c.cache.map ({ · with records }) }

/-- Only the records held last count. -/
@[simp] theorem holding_holding (records more : Records) :
    (c.holding records).holding more = c.holding more := by
  obtain ⟨options, severities, rules, paths, _ | cache⟩ := c <;> rfl

theorem isIgnored_holding (records : Records) (file : Bytes) :
    (c.holding records).isIgnored file = c.isIgnored file := rfl

/-- The records of the cache; none without a cache. -/
def records : Records := (c.cache.map (·.records)).getD []

theorem holding_records : c.holding c.records = c := by
  obtain ⟨options, severities, rules, paths, _ | cache⟩ := c <;> rfl

/-- The record of a file. -/
def recordOf (file : Bytes) : Option Record := c.records.lookup file

/-- The verdict that a record tells for a source, if there is a cache and the record is fresh. -/
def known? (now : Int) (source : Source) (record : Option Record) : Option Verdict := do
  let cache ← c.cache
  let r ← record
  if cache.fresh now source.raw r then some r.verdict else none

/-- The tree once the records are written to the cache's file, if they can be. -/
def flushed (t : FileTree) : FileTree :=
  (c.cache.bind fun cache => (cache.flush t).toOption).getD t

/-! ## Looking up and storing

Both are told for any records the checker may hold, since in a pool other workers have changed them
in between. -/

/-- A look-up finds the verdict that the record of the file tells; a miss drops the record. -/
theorem lookup_holding (records : Records) (now : Int) (file : Bytes) (source : Source) :
    (c.holding records).lookup now file source =
      match c.known? now source (records.lookup file) with
      | some verdict => (some verdict, c.holding records)
      | none => (none, c.holding (records.filter (·.1 ≠ file))) := by
  obtain ⟨options, severities, rules, paths, _ | cache⟩ := c
  · rfl
  rcases hrecord : records.lookup file with _ | r
  · have hget : ({ cache with records } : Cache).get now file source.raw =
        (none, { cache with records }) := by
      rw [Cache.get, hrecord]
    rw [filter_eq_self_of_lookup hrecord]
    simp only [lookup, holding, Option.map_some, hget]
    rfl
  · by_cases hfresh : cache.fresh now source.raw r = true
    · have hget : ({ cache with records } : Cache).get now file source.raw =
          (some r.verdict, { cache with records }) := by
        rw [Cache.get, hrecord]
        exact if_pos hfresh
      have hknown : known? ⟨options, severities, rules, paths, some cache⟩ now source (some r) =
          some r.verdict := if_pos hfresh
      rw [hknown]
      simp only [lookup, holding, Option.map_some, hget]
    · have hget : ({ cache with records } : Cache).get now file source.raw =
          (none, { cache with records := records.filter (·.1 ≠ file) }) := by
        rw [Cache.get, hrecord]
        exact if_neg hfresh
      have hknown : known? ⟨options, severities, rules, paths, some cache⟩ now source (some r) =
          none := if_neg hfresh
      rw [hknown]
      simp only [lookup, holding, Option.map_some, hget]

/-- A verdict is put in front of the other records, and all of them are written down. -/
theorem store_holding (records : Records) (t : FileTree) (now : Int) (file : Bytes)
    (source : Source) (verdict : Verdict) :
    let stored := (file, ⟨source.raw.digest, verdict, now⟩) :: records.filter (·.1 ≠ file)
    ((c.holding records).store t now file source verdict).2 =
      (c.holding stored, (c.holding stored).flushed t) := by
  intro stored
  obtain ⟨options, severities, rules, paths, _ | cache⟩ := c
  · rfl
  have hset : ({ cache with records } : Cache).set t now file source.raw verdict =
      ({ cache with records := stored }, ({ cache with records := stored } : Cache).flush t) := rfl
  simp only [store, holding, Option.map_some, hset, flushed, Option.bind_some]
  rcases ({ cache with records := stored } : Cache).flush t with failure | made <;> rfl

/-- **Records that are written down do away with those written before.** -/
theorem flushed_flushed {t : FileTree} (h : t.WellFormed) (records more : Records) :
    (c.holding more).flushed ((c.holding records).flushed t) = (c.holding more).flushed t := by
  obtain ⟨options, severities, rules, paths, _ | cache⟩ := c
  · rfl
  rcases h.create_cases (Cache.path cache.dir) with ⟨error, herror⟩ | ⟨place, -, -, -, hcreate⟩
  · have hkept : ∀ kept : Records,
        flushed (holding ⟨options, severities, rules, paths, some cache⟩ kept) t = t := by
      intro kept
      simp only [flushed, holding, Option.map_some, Option.bind_some, Cache.flush, herror]
      rfl
    rw [hkept]
  · have hmade := hcreate (cache.format.encode records)
    have hfirst : flushed (holding ⟨options, severities, rules, paths, some cache⟩ records) t =
        t.set place.location (.file (cache.format.encode records)) := by
      simp only [flushed, holding, Option.map_some, Option.bind_some, Cache.flush, hmade]
      rfl
    have hagain := h.create_create hmade (cache.format.encode more)
    rw [hfirst]
    simp only [flushed, holding, Option.map_some, Option.bind_some, Cache.flush, hagain, hcreate]
    rfl

/-! ## Whole checks -/

/-- A look-up finds the verdict that the record of the file tells, or drops that record. -/
theorem lookup_eq (now : Int) (file : Bytes) (source : Source) :
    c.lookup now file source =
      match c.known? now source (c.recordOf file) with
      | some verdict => (some verdict, c)
      | none => (none, c.holding (c.records.filter (·.1 ≠ file))) := by
  have hlookup := c.lookup_holding c.records now file source
  rwa [holding_records] at hlookup

/-- **A check changes the records of the cache, and nothing else of its checker.** -/
theorem exists_run_holding (t : FileTree) (now : Int) (file : Bytes) :
    ∃ records, (c.run t now file).checker = c.holding records := by
  rcases c.run_cases t now file with ⟨-, hrun⟩ | ⟨e, -, -, hrun⟩ | ⟨content, -, -, hrun⟩
  · exact ⟨c.records, by rw [hrun, holding_records]⟩
  · exact ⟨c.records, by rw [hrun, holding_records]⟩
  · rw [hrun, runRead, lookup_eq]
    rcases c.known? now (Source.ofContent content) (c.recordOf file) with _ | verdict
    · exact ⟨_, congrArg Prod.fst (c.store_holding _ t now file _ _)⟩
    · exact ⟨c.records, c.holding_records.symm⟩

/-- The cache of a checker is the same after a check, but for its records. -/
theorem exists_cache_of_run {t : FileTree} {now : Int} {file : Bytes} {stored : Cache}
    (h : stored ∈ (c.run t now file).checker.cache) :
    ∃ cache ∈ c.cache, stored = { cache with records := stored.records } := by
  obtain ⟨records, hrun⟩ := c.exists_run_holding t now file
  rw [hrun] at h
  obtain ⟨cache, hcache, rfl⟩ := Option.map_eq_some_iff.1 h
  exact ⟨cache, hcache, rfl⟩

/-- The source of a file that is to be checked; none if it is ignored or cannot be read. -/
def source? (t : FileTree) (file : Bytes) : Option Source :=
  if c.isIgnored file then none else (t.read file).toOption.map Source.ofContent

/-- The source of a file whose verdict the cache does not know. -/
def scanned? (t : FileTree) (now : Int) (file : Bytes) : Option Source :=
  (c.source? t file).filter fun source => (c.known? now source (c.recordOf file)).isNone

variable {c} {t : FileTree} {file : Bytes} {source : Source}

/-- A file is scanned if it is to be checked and its record does not count. -/
theorem scanned?_eq_some_iff {now : Int} : c.scanned? t now file = some source ↔
    c.source? t file = some source ∧ c.known? now source (c.recordOf file) = none := by
  rw [scanned?, Option.filter_eq_some_iff, Option.isNone_iff_eq_none]

/-- A file is to be checked if it is not ignored and can be read. -/
theorem source?_eq_some_iff : c.source? t file = some source ↔
    c.isIgnored file = false ∧ ∃ content, t.read file = .ok content ∧
      Source.ofContent content = source := by
  rw [source?]
  rcases hignored : c.isIgnored file with _ | _
  · rcases t.read file with e | content <;> simp [Except.toOption]
  · simp

/-- A file whose record counts is not scanned. -/
theorem run_of_known {now : Int} {verdict : Verdict} (h : c.source? t file = some source)
    (hknown : c.known? now source (c.recordOf file) = some verdict) :
    (c.run t now file).answer = .ok (some { c.result file source verdict with cached := true }) := by
  obtain ⟨hignored, content, hread, rfl⟩ := source?_eq_some_iff.1 h
  rw [run_of_read hignored hread, runRead, lookup_eq, hknown]

/-- A file that is scanned has the verdict of the scan for an answer. -/
theorem run_of_scanned {now : Int} (h : c.scanned? t now file = some source) :
    (c.run t now file).answer = .ok (some (c.result file source (scan source.raw))) := by
  obtain ⟨hsource, hknown⟩ := scanned?_eq_some_iff.1 h
  obtain ⟨hignored, content, hread, rfl⟩ := source?_eq_some_iff.1 hsource
  rw [run_of_read hignored hread, runRead, lookup_eq, hknown]
  dsimp only
  rw [store_checker]
  rfl

end Checker

end BraceBalance
