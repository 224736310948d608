import BraceBalance.Proofs.Cache.Record
import BraceBalance.Proofs.Checker.Records
import BraceBalance.Proofs.FileTree.Update
import Mathlib.Logic.Relation

/-!
# Proofs/Cache/Transparency — a cache changes no answer

Checkers and cache handles share files: several checkers may use one handle, several handles may be
on one directory and overwrite each other's file, and the files checked change meanwhile.  An
`Ensemble` is all of this together, with its history; an `Action` is anything that is done in it.

The invariant is that every record, in memory or in what was ever flushed, is `Genuine`: it pairs
the digest of a source that was checked with the verdict on that source.  Stale records may be
dropped, flushes may fail and handles may be cleared or reopened, an action keeps it
(`Ensemble.Honest.act`), in whatever format the records are kept as long as they are read back as
they were written.  So a record that is found for a source tells the verdict on it, unless two
sources have one digest (`Checker.runRead_answer`).
-/

namespace BraceBalance

/-! ## Checkers, handles and files -/

/-- A checker, and the number of the cache handle it uses. -/
structure Worker where
  checker : Checker
  handle : Option Nat := none

/-- All that is at work on some files, and its history. -/
structure Ensemble where
  /-- How the caches keep their records in files. -/
  format : Records.Format
  tree : FileTree
  /-- The cache handles, in the order they were opened. -/
  handles : List Cache := []
  /-- The checkers, in the order they were made. -/
  workers : List Worker := []
  /-- The sources that were checked. -/
  checked : List Bytes := []
  /-- What the files of caches held once they were flushed. -/
  flushed : List Bytes := []

/-- Something that is done in an ensemble; checkers and handles are given by their numbers. -/
inductive Action where
  /-- Files are written, removed or changed in any other way. -/
  | edit (tree : FileTree)
  | make (options : Options) (rules : List (Bytes × Severity))
  | ignoreRule (worker : Nat) (rule : Bytes)
  | ignorePath (worker : Nat) (pattern : Bytes)
  | openCache (dir : Bytes)
  /-- A checker uses this cache from now on, or none. -/
  | useCache (worker : Nat) (handle : Option Nat)
  | setMaxAge (handle : Nat) (maxAge : Int)
  | clear (handle : Nat)
  | run (worker : Nat) (now : Int) (file : Bytes)

/-- What the file of a cache holds once the records are flushed to it. -/
def Cache.flushed? (c : Cache) (t : FileTree) : Option Bytes := do
  ((← (c.flush t).toOption).read (path c.dir)).toOption

namespace Checker.Checked

/-- The source that was checked, if there is a result. -/
def source? (d : Checked) : Option Bytes :=
  match d.answer with
  | .ok (some r) => some r.source.raw
  | _ => none

/-- What the file of the cache held after the records were flushed, in the tree as it was before;
they are flushed once there is a result that did not come from them. -/
def flushed? (d : Checked) (t : FileTree) : Option Bytes :=
  match d.answer, d.checker.cache with
  | .ok (some r), some cache => if r.cached then none else cache.flushed? t
  | _, _ => none

end Checker.Checked

namespace Ensemble

/-- The checker of a worker, with the cache it uses. -/
def checkerOf (y : Ensemble) (w : Worker) : Checker :=
  { w.checker with cache := w.handle.bind fun n => y.handles[n]? }

/-- The ensemble after a worker has checked a file. -/
def after (y : Ensemble) (w : Worker) (d : Checker.Checked) : Ensemble :=
  { y with
    tree := d.tree
    handles :=
      match w.handle, d.checker.cache with
      | some n, some cache => y.handles.set n cache
      | _, _ => y.handles
    checked := d.source?.toList ++ y.checked
    flushed := (d.flushed? y.tree).toList ++ y.flushed }

/-- The ensemble after an action.  What cannot be done changes nothing, except that a cache that
cannot be loaded leaves its directory made. -/
def act (y : Ensemble) : Action → Ensemble
  | .edit tree => { y with tree }
  | .make options rules =>
    match Checker.create options rules with
    | .ok checker => { y with workers := y.workers ++ [{ checker }] }
    | .error _ => y
  | .ignoreRule n rule =>
    { y with workers :=
        y.workers.modify n fun w => { w with checker := w.checker.ignoreRule rule } }
  | .ignorePath n pattern =>
    { y with workers :=
        y.workers.modify n fun w => { w with checker := w.checker.ignorePath pattern } }
  | .openCache dir =>
    match Cache.openAt y.tree dir y.format with
    | (.ok cache, tree) => { y with tree, handles := y.handles ++ [cache] }
    | (.error _, tree) => { y with tree }
  | .useCache n handle => { y with workers := y.workers.modify n fun w => { w with handle } }
  | .setMaxAge n maxAge =>
    match y.handles[n]? with
    | none => y
    | some cache => { y with handles := y.handles.set n { cache with maxAge } }
  | .clear n =>
    match y.handles[n]? with
    | none => y
    | some cache =>
      let (cache, written) := cache.clear y.tree
      { y with
        tree := written.toOption.getD y.tree
        handles := y.handles.set n cache
        flushed := (cache.flushed? y.tree).toList ++ y.flushed }
  | .run n now file =>
    match y.workers[n]? with
    | none => y
    | some w => y.after w ((y.checkerOf w).run y.tree now file)

/-- Nothing but a flush wrote the file a cache is opened on: what it holds, once its directory is
made, is what some such file held after a flush. -/
def Trusts (y : Ensemble) : Action → Prop
  | .openCache dir =>
    ∀ content, (do (← y.tree.makeDirs dir).read (Cache.path dir)) = .ok content →
      content ∈ y.flushed
  | _ => True

instance (y : Ensemble) (a : Action) : Decidable (y.Trusts a) :=
  match a with
  | .openCache dir =>
    match hread : (do (← y.tree.makeDirs dir).read (Cache.path dir)) with
    | .ok found => decidable_of_iff (found ∈ y.flushed) (by simp [Trusts, hread])
    | .error e => .isTrue (by simp [Trusts, hread])
  | .edit _ | .make _ _ | .ignoreRule _ _ | .ignorePath _ _ | .useCache _ _ | .setMaxAge _ _
  | .clear _ | .run _ _ _ => .isTrue trivial

/-- One action, with no foreign file taken for that of a cache. -/
inductive Acts (y : Ensemble) : Ensemble → Prop
  | act (a : Action) (h : y.Trusts a) : Acts y (y.act a)

/-- The ensembles that sequences of actions lead to, from some files and nothing else. -/
def Reaches (format : Records.Format) (t : FileTree) (y : Ensemble) : Prop :=
  Relation.ReflTransGen Acts { format, tree := t } y

end Ensemble

/-! ## Genuine records

Records stay genuine when more sources are checked, when some of them are dropped, and when the
verdict on a source that was checked is added. -/

/-- Every record pairs the digest of a source that was checked with the verdict on it. -/
def Records.Genuine (checked : List Bytes) (rs : Records) : Prop :=
  ∀ e ∈ rs, ∃ raw ∈ checked, e.2.digest = raw.digest ∧ e.2.verdict = scan raw

namespace Records.Genuine

variable {checked : List Bytes} {rs : Records}

theorem nil : Genuine checked [] := nofun

theorem mono {more : List Bytes} (h : Genuine checked rs) (hsub : checked ⊆ more) :
    Genuine more rs := by
  intro e he
  obtain ⟨raw, hraw, hrecord⟩ := h e he
  exact ⟨raw, hsub hraw, hrecord⟩

theorem subset {fewer : Records} (h : Genuine checked rs) (hsub : fewer ⊆ rs) :
    Genuine checked fewer :=
  fun e he => h e (hsub he)

/-- The verdict on a source that was checked may be added. -/
theorem cons (h : Genuine checked rs) (name : Bytes) {raw : Bytes} (hraw : raw ∈ checked)
    (now : Int) : Genuine checked ((name, ⟨raw.digest, scan raw, now⟩) :: rs) := by
  intro e he
  rcases List.mem_cons.1 he with rfl | he
  · exact ⟨raw, hraw, rfl, rfl⟩
  · exact h e he

end Records.Genuine

/-! ## Genuine records in a file and in a checker -/

namespace Cache

/-- A handle that keeps its records in this format, and only genuine ones. -/
structure Genuine (format : Records.Format) (checked : List Bytes) (c : Cache) : Prop where
  format : c.format = format
  records : c.records.Genuine checked

theorem Genuine.mono {format : Records.Format} {checked more : List Bytes} {c : Cache}
    (h : c.Genuine format checked) (hsub : checked ⊆ more) : c.Genuine format more :=
  ⟨h.format, h.records.mono hsub⟩

/-- A flush leaves the records in the file, as they are written. -/
theorem eq_of_mem_flushed? {c : Cache} {t : FileTree} {content : Bytes}
    (h : content ∈ c.flushed? t) : content = c.format.encode c.records := by
  rw [flushed?, flush] at h
  cases hcreate : t.create (path c.dir) (c.format.encode c.records) with
  | error e => simp [hcreate, Except.toOption] at h
  | ok made =>
    cases hread : made.read (path c.dir) with
    | error e => simp [hcreate, hread, Except.toOption] at h
    | ok found =>
      have hfound : found = content := by simpa [hcreate, hread, Except.toOption] using h
      rw [← hfound]
      exact FileTree.eq_of_read_create hcreate hread

section

variable {format : Records.Format} {checked : List Bytes} {t tree : FileTree} {dir : Bytes}

/-- What the file of a genuine handle holds after a flush is genuine. -/
theorem Genuine.of_mem_flushed? {c : Cache} (h : c.Genuine format checked) {content : Bytes}
    (hmem : content ∈ c.flushed? t) :
    ∃ rs : Records, content = format.encode rs ∧ rs.Genuine checked :=
  ⟨c.records, h.format ▸ eq_of_mem_flushed? hmem, h.records⟩

/-- What is loaded from genuine records, or where there is no file, is genuine. -/
theorem load_genuine (hformat : format.Faithful) {records : Records}
    (hload : load format t dir = .ok records)
    (h : ∀ content, t.read (path dir) = .ok content →
      ∃ rs : Records, content = format.encode rs ∧ rs.Genuine checked) :
    records.Genuine checked := by
  rw [load] at hload
  cases hread : t.read (path dir) with
  | error e =>
    simp only [hread] at hload
    split_ifs at hload
    obtain rfl := Except.ok.inj hload
    exact .nil
  | ok content =>
    obtain ⟨rs, rfl, hrs⟩ := h content hread
    simp only [hread, hformat rs] at hload
    exact Except.ok.inj hload ▸ hrs

/-- A handle that is opened on genuine records, or where there is no file, is genuine. -/
theorem openAt_genuine (hformat : format.Faithful) {cache : Cache}
    (hopen : openAt t dir format = (.ok cache, tree))
    (h : ∀ content, (do (← t.makeDirs dir).read (path dir)) = .ok content →
      ∃ rs : Records, content = format.encode rs ∧ rs.Genuine checked) :
    cache.Genuine format checked := by
  rw [openAt] at hopen
  cases hmake : t.makeDirs dir with
  | error e => simp [hmake] at hopen
  | ok made =>
    simp only [hmake] at hopen
    cases hload : load format made dir with
    | error e => simp [hload] at hopen
    | ok records =>
      simp only [hload, Prod.mk.injEq, Except.ok.injEq] at hopen
      obtain ⟨rfl, -⟩ := hopen
      refine ⟨rfl, load_genuine hformat hload fun content hread => h content ?_⟩
      rw [hmake]
      exact hread

end

end Cache

namespace Checker

/-- What a check flushed is the cache it leaves. -/
theorem Checked.exists_of_mem_flushed? {d : Checked} {t : FileTree} {content : Bytes}
    (h : content ∈ d.flushed? t) : ∃ cache ∈ d.checker.cache, content ∈ cache.flushed? t := by
  rw [flushed?] at h
  split at h
  · next r cache _ hcache =>
    split_ifs at h
    · cases h
    · exact ⟨cache, hcache, h⟩
  · cases h

/-- A run keeps the cache genuine, with its own source among those checked. -/
theorem run_genuine {c : Checker} {format : Records.Format} {checked : List Bytes}
    (h : ∀ cache ∈ c.cache, cache.Genuine format checked) (t : FileTree) (now : Int)
    (file : Bytes) :
    ∀ cache ∈ (c.run t now file).checker.cache,
      cache.Genuine format ((c.run t now file).source?.toList ++ checked) := by
  intro stored hstored
  refine ⟨?_, ?_⟩
  · obtain ⟨cache, hcache, heq⟩ := c.exists_cache_of_run hstored
    rw [heq]
    exact (h cache hcache).format
  rcases c.run_cases t now file with ⟨-, hrun⟩ | ⟨e, -, -, hrun⟩ | ⟨content, -, -, hrun⟩
  · rw [hrun] at hstored ⊢
    exact (h stored hstored).records
  · rw [hrun] at hstored ⊢
    exact (h stored hstored).records
  · rw [hrun] at hstored ⊢
    rcases c.runRead_cases t now file (Source.ofContent content) with
      ⟨cache, r, -, -, -, -, hchecker⟩ | ⟨hanswer, hcache⟩
    · refine (h stored ?_).records.mono (List.subset_append_right _ _)
      rwa [hchecker] at hstored
    · obtain ⟨cache, hmem, kept, hkept, hrecords⟩ := hcache stored hstored
      have hchecked := (h cache hmem).records.subset hkept
      simp only [Checked.source?, hanswer, hrecords]
      exact (hchecked.mono (List.subset_append_right _ _)).cons file
        (List.mem_append_left _ (Option.mem_toList.2 rfl)) now

/-- With genuine records the verdict is that of a scan, unless another source that was checked has
the same digest. -/
theorem runRead_answer {c : Checker} {format : Records.Format} {checked : List Bytes}
    (h : ∀ cache ∈ c.cache, cache.Genuine format checked) (t : FileTree) (now : Int)
    (file : Bytes) {source : Source}
    (hdigest : ∀ raw ∈ checked, raw.digest = source.raw.digest → raw = source.raw) :
    ∃ cached, (c.runRead t now file source).answer =
      .ok (some { c.result file source (scan source.raw) with cached }) := by
  rcases c.runRead_cases t now file source with
    ⟨cache, r, hcache, hr, hsame, hanswer, -⟩ | ⟨hanswer, -⟩
  · -- The source that the record was made for is this one: they have one digest.
    obtain ⟨raw, hraw, hgenuine, hverdict⟩ := (h cache hcache).records _ hr
    obtain rfl := hdigest raw hraw (hgenuine.symm.trans hsame)
    exact ⟨true, by rw [hanswer, ← hverdict]⟩
  · exact ⟨false, hanswer⟩

end Checker

/-! ## The invariant

Files that are edited, and rules and paths that are ignored, do not touch a record; all other
actions go through one handle, which they leave genuine. -/

namespace Ensemble

/-- Every record in memory, and every one that was flushed, is genuine. -/
structure Honest (y : Ensemble) : Prop where
  handles : ∀ cache ∈ y.handles, cache.Genuine y.format y.checked
  flushed : ∀ content ∈ y.flushed,
    ∃ rs : Records, content = y.format.encode rs ∧ rs.Genuine y.checked

/-- A handle may be replaced by another genuine one. -/
theorem genuine_set {format : Records.Format} {checked : List Bytes} {handles : List Cache}
    (h : ∀ cache ∈ handles, cache.Genuine format checked) (n : Nat) {new : Cache}
    (hnew : new.Genuine format checked) :
    ∀ cache ∈ handles.set n new, cache.Genuine format checked := by
  intro cache hcache
  rcases List.mem_or_eq_of_mem_set hcache with hcache | rfl
  · exact h cache hcache
  · exact hnew

namespace Honest

variable {y : Ensemble}

/-- The cache of a worker is one of the handles. -/
theorem checkerOf (h : y.Honest) (w : Worker) :
    ∀ cache ∈ (y.checkerOf w).cache, cache.Genuine y.format y.checked := by
  intro cache hcache
  obtain ⟨n, -, hn⟩ := Option.bind_eq_some_iff.1 hcache
  exact h.handles cache (List.mem_of_getElem? hn)

/-- A check that leaves a genuine cache leaves all handles and files genuine. -/
theorem after (h : y.Honest) (w : Worker) {d : Checker.Checked}
    (hd : ∀ cache ∈ d.checker.cache,
      cache.Genuine y.format (d.source?.toList ++ y.checked)) : (y.after w d).Honest := by
  have hmore : y.checked ⊆ d.source?.toList ++ y.checked := List.subset_append_right _ _
  have hkept : ∀ cache ∈ y.handles, cache.Genuine y.format (d.source?.toList ++ y.checked) :=
    fun cache hcache => (h.handles cache hcache).mono hmore
  constructor
  · simp only [Ensemble.after]
    split
    · next n cache _ hcache => exact genuine_set hkept n (hd cache hcache)
    · exact hkept
  · intro content hcontent
    rcases List.mem_append.1 hcontent with hnew | hold
    · obtain ⟨cache, hcache, hflushed⟩ :=
        Checker.Checked.exists_of_mem_flushed? (Option.mem_toList.1 hnew)
      exact (hd cache hcache).of_mem_flushed? hflushed
    · obtain ⟨rs, hencode, hrs⟩ := h.flushed content hold
      exact ⟨rs, hencode, hrs.mono hmore⟩

/-- **An action keeps all records genuine.** -/
theorem act (h : y.Honest) (hformat : y.format.Faithful) {a : Action} (ha : y.Trusts a) :
    (y.act a).Honest := by
  cases a with
  | edit tree => exact ⟨h.handles, h.flushed⟩
  | make options rules =>
    rw [Ensemble.act]
    split
    · exact ⟨h.handles, h.flushed⟩
    · exact h
  | ignoreRule n rule => exact ⟨h.handles, h.flushed⟩
  | ignorePath n pattern => exact ⟨h.handles, h.flushed⟩
  | useCache n handle => exact ⟨h.handles, h.flushed⟩
  | openCache dir =>
    rw [Ensemble.act]
    split
    · -- The new handle holds what some flush left.
      next cache tree hopen =>
      have hcache := Cache.openAt_genuine hformat hopen fun content hread =>
        h.flushed _ (ha content hread)
      refine ⟨fun cache' hmem => ?_, h.flushed⟩
      rcases List.mem_append.1 hmem with hmem | hmem
      · exact h.handles cache' hmem
      · exact List.mem_singleton.1 hmem ▸ hcache
    · exact ⟨h.handles, h.flushed⟩
  | setMaxAge n maxAge =>
    rw [Ensemble.act]
    split
    · exact h
    · next cache hn =>
      have hcache := h.handles cache (List.mem_of_getElem? hn)
      exact ⟨genuine_set h.handles n ⟨hcache.format, hcache.records⟩, h.flushed⟩
  | clear n =>
    rw [Ensemble.act]
    split
    · exact h
    · next cache hn =>
      have hcache := h.handles cache (List.mem_of_getElem? hn)
      have hcleared : Cache.Genuine y.format y.checked { cache with records := [] } :=
        ⟨hcache.format, .nil⟩
      refine ⟨genuine_set h.handles n hcleared, fun content hcontent => ?_⟩
      rcases List.mem_append.1 hcontent with hnew | hold
      · exact hcleared.of_mem_flushed? (Option.mem_toList.1 hnew)
      · exact h.flushed content hold
  | run n now file =>
    rw [Ensemble.act]
    split
    · exact h
    · next w _ => exact h.after w (Checker.run_genuine (h.checkerOf w) y.tree now file)

end Honest

/-- The format stays the same. -/
theorem format_act (y : Ensemble) (a : Action) : (y.act a).format = y.format := by
  cases a with
  | edit _ | ignoreRule _ _ | ignorePath _ _ | useCache _ _ => rfl
  | make _ _ | openCache _ | setMaxAge _ _ | clear _ | run _ _ _ =>
    rw [act]
    split <;> rfl

/-- **Whatever was done, all records are genuine.** -/
theorem Reaches.honest {format : Records.Format} (hformat : format.Faithful) {t : FileTree}
    {y : Ensemble} (h : Reaches format t y) : y.format = format ∧ y.Honest := by
  induction h with
  | refl => exact ⟨rfl, nofun, nofun⟩
  | @tail y _ _ hacts ih =>
    obtain ⟨rfl, hhonest⟩ := ih
    cases hacts with
    | act a ha => exact ⟨y.format_act a, hhonest.act hformat ha⟩

end Ensemble

/-! ## Answers with and without a cache -/

/-- The issue in a file of this name. -/
def Issue.named (file : Bytes) (i : Issue) : Issue := { i with filename := file }

/-- The name of a file enters the issues of a verdict as their file name only. -/
theorem Issue.ofVerdict_eq_map_named (file : Bytes) (v : Verdict) (o : Options) :
    ofVerdict file v o = (ofVerdict [] v o).map (named file) := by
  rw [ofVerdict, ofVerdict]
  split
  · rfl
  · rw [List.map_map]
    rfl
  · rfl

theorem Checker.filterIssues_map_named (c : Checker) (file : Bytes) (issues : List Issue) :
    c.filterIssues (issues.map (Issue.named file)) =
      (c.filterIssues issues).map (Issue.named file) := by
  rw [filterIssues, filterIssues, List.filter_map, List.map_map, List.map_map]
  rfl

/-- The result, whether or not its verdict came from a cache. -/
def Result.uncached (r : Result) : Result := { r with cached := false }

/-- **A cache changes no answer**, in whatever format its records are kept as long as they are read
back as they were written.  After any sequence of actions, in which a cache is opened only
where nothing but a flush wrote its file, let a checker check a file whose source shares its digest
with no other source that was checked.  The answer is that of the same checker without a cache,
except that it may say where the verdict came from.  If the file is not ignored and can be read,
there is a result, and it is the one for the content in memory, up to the name of the file. -/
theorem cache_transparent {format : Records.Format} (hformat : format.Faithful) {t : FileTree}
    {y : Ensemble} (h : Ensemble.Reaches format t y) (w : Worker) (now : Int) (file : Bytes)
    (hdigest : ∀ content, y.tree.read file = .ok content → ∀ raw ∈ y.checked,
      raw.digest = (Source.ofContent content).raw.digest → raw = (Source.ofContent content).raw) :
    ((y.checkerOf w).run y.tree now file).answer.map (·.map Result.uncached) =
        ({ y.checkerOf w with cache := none }.run y.tree now file).answer ∧
      ∀ content, y.tree.read file = .ok content → (y.checkerOf w).isIgnored file = false →
        ∃ r, ((y.checkerOf w).run y.tree now file).answer = .ok (some r) ∧
          r.verdict = ((y.checkerOf w).runSource content).1.verdict ∧
          r.status = ((y.checkerOf w).runSource content).1.status ∧
          r.source = ((y.checkerOf w).runSource content).1.source ∧
          r.issues = ((y.checkerOf w).runSource content).1.issues.map (Issue.named file) := by
  have hgenuine := (h.honest hformat).2.checkerOf w
  generalize y.checkerOf w = c at hgenuine ⊢
  constructor
  · cases hignored : c.isIgnored file with
    | true =>
      have hplain : { c with cache := none }.isIgnored file = true := hignored
      rw [Checker.run, Checker.run, if_pos hignored, if_pos hplain]
      rfl
    | false =>
      have hplain : { c with cache := none }.isIgnored file = false := hignored
      cases hread : y.tree.read file with
      | error e =>
        rw [Checker.run, Checker.run, hignored, hplain, hread]
        rfl
      | ok content =>
        obtain ⟨cached, hanswer⟩ :=
          Checker.runRead_answer hgenuine y.tree now file (hdigest content hread)
        rw [Checker.run_of_read hignored hread, Checker.run_of_read hplain hread, hanswer]
        rfl
  · intro content hread hignored
    obtain ⟨cached, hanswer⟩ :=
      Checker.runRead_answer hgenuine y.tree now file (hdigest content hread)
    rw [Checker.run_of_read hignored hread]
    refine ⟨_, hanswer, rfl, rfl, rfl, ?_⟩
    exact (congrArg c.filterIssues (Issue.ofVerdict_eq_map_named file _ c.options)).trans
      (c.filterIssues_map_named file _)

/-- A checker finds what another one flushed, once a second handle is opened on the directory. -/
theorem cache_transparent_reopened :
    ∃ y, Ensemble.Reaches .fields (FileTree.empty.set ["work", "a"] (.file [0x7b])) y ∧
      ∃ w ∈ y.workers, ∃ r, ((y.checkerOf w).run y.tree 5 "a").answer = .ok (some r) ∧
        r.cached = true ∧ r.verdict = .unmatchedOpen [⟨⟨1, 1⟩, .brace⟩] := by
  have hflushed : Ensemble.Reaches .fields (FileTree.empty.set ["work", "a"] (.file [0x7b])) _ :=
    (((Relation.ReflTransGen.refl.tail (.act (.make .standard []) trivial)).tail
      (.act (.openCache "c") (by decide +kernel))).tail
      (.act (.useCache 0 (some 0)) trivial)).tail (.act (.run 0 0 "a") trivial)
  have hreaches := ((hflushed.tail (.act (.openCache "c") (by decide +kernel))).tail
    (.act (.make .standard []) trivial)).tail (.act (.useCache 1 (some 1)) trivial)
  have htransparent := cache_transparent Records.Format.faithful_fields hreaches
    ⟨{ options := .standard }, some 1⟩ 5 "a" fun content hread raw hraw _ => by
      obtain rfl := Except.ok.inj hread
      exact List.mem_singleton.1 hraw
  obtain ⟨r, hanswer, hverdict, -⟩ := htransparent.2 [0x7b] rfl rfl
  refine ⟨_, hreaches, _, List.mem_of_getElem? (i := 1) rfl, r, hanswer, ?_, hverdict⟩
  have hcached := congrArg (fun answer => answer.toOption.join.any (·.cached)) hanswer
  exact hcached.symm.trans (by decide +kernel)

end BraceBalance
