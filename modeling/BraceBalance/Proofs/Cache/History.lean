import BraceBalance.Proofs.Cache.Record
import BraceBalance.Proofs.Checker.Run
import BraceBalance.Proofs.FileTree.Growth
import Mathlib.Data.List.Induction

/-!
# Proofs/Cache/History — a cache is its history

    opened ──set, get, setMaxAge, clear──▸ after ──get──▸ what was stored last, if it still counts

A handle answers by what was done with it: a look-up finds the record that was stored last, if
nothing was cleared and no look-up missed since (`Cache.lookup_after`), and of what was done with
other files nothing matters (`Cache.get_after_filter`).  Whether records could be written does not
matter either, since each use brings its own tree.  If they were written, a new handle reads them
back (`Cache.records_of_reopened`).
-/

namespace BraceBalance

namespace Cache

/-- What is done with a handle.  A use that writes the records has the tree they are written to. -/
inductive Use where
  | set (t : FileTree) (now : Int) (name content : Bytes) (verdict : Verdict)
  | get (now : Int) (name content : Bytes)
  | setMaxAge (maxAge : Int)
  | clear (t : FileTree)

/-- The handle after a use. -/
def use (c : Cache) : Use → Cache
  | .set t now name content verdict => (c.set t now name content verdict).1
  | .get now name content => (c.get now name content).2
  | .setMaxAge maxAge => { c with maxAge }
  | .clear t => (c.clear t).1

/-- The handle after uses in turn. -/
def after (c : Cache) (history : List Use) : Cache := history.foldl use c

namespace Use

/-- Whether the record of a file is replaced or cleared, whatever it was. -/
def renews (name : Bytes) : Use → Bool
  | set _ _ other _ _ => other = name
  | clear _ => true
  | get _ _ _ | setMaxAge _ => false

/-- Whether a use is about this file or about all. -/
def concerns (name : Bytes) : Use → Bool
  | set _ _ other _ _ | get _ other _ => other = name
  | setMaxAge _ | clear _ => true

/-- The age that is set. -/
def maxAge? : Use → Option Int
  | setMaxAge maxAge => some maxAge
  | _ => none

/-- This record is stored for the file. -/
def Stores (name : Bytes) (u : Use) (r : Record) : Prop :=
  ∃ t now content verdict,
    u = set t now name content verdict ∧ r = ⟨content.digest, verdict, now⟩

/-- A look-up of the file that misses. -/
def Misses (c : Cache) (name : Bytes) (u : Use) : Prop :=
  ∃ now content, u = get now name content ∧ (c.get now name content).1 = none

/-- The records of a handle were written, and this is the tree that was left. -/
def Wrote (c : Cache) (t made : FileTree) : Use → Prop
  | set t' now name content verdict => t' = t ∧ (c.set t' now name content verdict).2 = .ok made
  | clear t' => t' = t ∧ (c.clear t').2 = .ok made
  | get _ _ _ | setMaxAge _ => False

end Use

/-! ## What a history says -/

section

variable (c : Cache) (name : Bytes)

/-- The record that was stored last: at the end of `before`, or by the opening if `before` is empty;
nothing in `since` renews it. -/
structure Latest (before since : List Use) (r : Record) : Prop where
  stored : (∃ earlier u, before = earlier ++ [u] ∧ u.Stores name r) ∨
    before = [] ∧ c.records.lookup name = some r
  kept : ∀ u ∈ since, u.renews name = false

/-- A look-up of the file in `since` missed. -/
def Missed (before since : List Use) : Prop :=
  ∃ seen u rest, since = seen ++ u :: rest ∧ u.Misses (c.after (before ++ seen)) name

/-- The record of a file that a history leaves: the one stored last, if no look-up missed since. -/
def Leaves (history : List Use) (r : Record) : Prop :=
  ∃ before since, history = before ++ since ∧ c.Latest name before since r ∧
    ¬c.Missed name before since

/-- The age past which a record is stale, by a history. -/
def ageLimit (history : List Use) : Int :=
  (history.filterMap Use.maxAge?).getLast?.getD c.maxAge

end

variable {c d : Cache} {name : Bytes}

/-! ## One use

Each use is told by the one record it may change and by the limit it may set, so that nothing below
looks into the records themselves. -/

/-- A record that is put is found for its file, and all others as before. -/
theorem lookup_put (c : Cache) (other name : Bytes) (r : Record) :
    (c.put other r).records.lookup name =
      if other = name then some r else c.records.lookup name := by
  by_cases h : other = name
  · rw [if_pos h, h]
    exact List.lookup_cons_self
  · have hskip : (name == other) = false := beq_false_of_ne (Ne.symm h)
    rw [if_neg h, put, List.lookup_cons, hskip]
    exact lookup_filter_ne (Ne.symm h) c.records

/-- A look-up answers the verdict of a record that is there, on this content and not too old. -/
theorem get_eq_some_iff {now : Int} {content : Bytes} {v : Verdict} :
    (c.get now name content).1 = some v ↔ ∃ r, c.records.lookup name = some r ∧ r.verdict = v ∧
      r.digest = content.digest ∧ (r.age now).toInt ≤ c.maxAge := by
  have hfresh : ∀ r, c.fresh now content r = true ↔
      (r.age now).toInt ≤ c.maxAge ∧ r.digest = content.digest := by
    intro r
    rw [fresh, Bool.and_eq_true, decide_eq_true_iff, beq_iff_eq]
  rw [get]
  rcases c.records.lookup name with _ | r
  · simp
  · by_cases hr : c.fresh now content r = true
    · obtain ⟨hage, hdigest⟩ := (hfresh r).1 hr
      simp only [if_pos hr, Option.some.injEq]
      constructor
      · intro hv
        exact ⟨r, rfl, hv, hdigest, hage⟩
      · rintro ⟨_, rfl, hv, -⟩
        exact hv
    · simp only [if_neg hr, reduceCtorEq, Option.some.injEq, false_iff]
      rintro ⟨_, rfl, -, hdigest, hage⟩
      exact hr ((hfresh r).2 ⟨hage, hdigest⟩)

/-- A look-up that misses drops the record of its file, and nothing else. -/
theorem lookup_get (c : Cache) (now : Int) (other content name : Bytes) :
    (c.get now other content).2.records.lookup name =
      if other = name ∧ (c.get now other content).1 = none then none
      else c.records.lookup name := by
  rw [get]
  rcases hother : c.records.lookup other with _ | r
  · by_cases h : other = name
    · subst h
      simp [hother]
    · simp [h]
  · by_cases hfresh : c.fresh now content r = true
    · simp [hfresh]
    · by_cases h : other = name
      · subst h
        simp only [if_neg hfresh, and_self, if_true]
        exact lookup_filter_self c.records other
      · simp only [if_neg hfresh, h, false_and, if_false]
        exact lookup_filter_ne (Ne.symm h) c.records

/-- What a handle holds for a file after a use, by what it held before. -/
theorem lookup_use (c : Cache) (name : Bytes) (u : Use) :
    (c.use u).records.lookup name =
      match u with
      | .set _ now other content verdict =>
        if other = name then some ⟨content.digest, verdict, now⟩ else c.records.lookup name
      | .get now other content =>
        if other = name ∧ (c.get now other content).1 = none then none
        else c.records.lookup name
      | .setMaxAge _ => c.records.lookup name
      | .clear _ => none := by
  rcases u with ⟨t, now, other, content, verdict⟩ | ⟨now, other, content⟩ | maxAge | t
  · exact lookup_put c other name _
  · exact lookup_get c now other content name
  · rfl
  · rfl

/-- The last limit that was set is in force. -/
theorem maxAge_use (c : Cache) (u : Use) : (c.use u).maxAge = u.maxAge?.getD c.maxAge := by
  rcases u with ⟨t, now, other, content, verdict⟩ | ⟨now, other, content⟩ | maxAge | t
  · rfl
  · rw [use]
    rcases c.get_cases now other content with ⟨_, _, _, h⟩ | ⟨_, _, h⟩ <;> (rw [h]; rfl)
  · rfl
  · rfl

/-! ## A history of uses

A history is taken apart at its last use, and what `Cache.Leaves` says of it is matched with what
that use does to the record. -/

theorem after_concat (c : Cache) (history : List Use) (u : Use) :
    c.after (history ++ [u]) = (c.after history).use u :=
  List.foldl_append

/-- After a use that renews the record of a file, the record is the one it stores, if any. -/
theorem lookup_use_of_renews {u : Use} (hu : u.renews name = true) {r : Record} :
    (c.use u).records.lookup name = some r ↔ u.Stores name r := by
  rw [lookup_use]
  rcases u with ⟨t, now, other, content, verdict⟩ | ⟨now, other, content⟩ | maxAge | t
  · obtain rfl : other = name := of_decide_eq_true hu
    dsimp only
    rw [if_pos rfl]
    constructor
    · intro h
      exact ⟨t, now, content, verdict, rfl, (Option.some.inj h).symm⟩
    · rintro ⟨_, _, _, _, h, rfl⟩
      cases h
      rfl
  · cases hu
  · cases hu
  · simp [Use.Stores]

/-- A use that does not renew the record of a file keeps it, unless it is a look-up that misses. -/
theorem lookup_use_of_kept {u : Use} (hu : u.renews name = false) {r : Record} :
    (c.use u).records.lookup name = some r ↔
      c.records.lookup name = some r ∧ ¬u.Misses c name := by
  rw [lookup_use]
  rcases u with ⟨t, now, other, content, verdict⟩ | ⟨now, other, content⟩ | maxAge | t
  · have hother : other ≠ name := of_decide_eq_false hu
    simp [Use.Misses, hother]
  · by_cases h : other = name ∧ (c.get now other content).1 = none
    · obtain ⟨rfl, hmiss⟩ := h
      simp [Use.Misses, hmiss]
    · simp only [if_neg h, Use.Misses, Use.get.injEq, iff_self_and]
      rintro - ⟨_, _, ⟨rfl, rfl, rfl⟩, hmiss⟩
      exact h ⟨rfl, hmiss⟩
  · simp [Use.Misses]
  · cases hu

theorem renews_of_stores {u : Use} {r : Record} (h : u.Stores name r) : u.renews name = true := by
  obtain ⟨t, now, content, verdict, rfl, -⟩ := h
  exact decide_eq_true rfl

theorem not_missed_nil {before : List Use} : ¬c.Missed name before [] := by
  rintro ⟨seen, miss, rest, hsince, -⟩
  simp at hsince

/-- With no uses, the records of the opening are the ones that are left. -/
theorem leaves_nil {r : Record} : c.Leaves name [] r ↔ c.records.lookup name = some r := by
  constructor
  · rintro ⟨before, since, hhistory, ⟨⟨earlier, u, rfl, -⟩ | ⟨-, h⟩, -⟩, -⟩
    · simp at hhistory
    · exact h
  · intro h
    exact ⟨[], [], rfl, ⟨.inr ⟨rfl, h⟩, nofun⟩, not_missed_nil⟩

/-- A last use that renews the record of a file is all that counts for it. -/
theorem leaves_concat_of_renews {history : List Use} {u : Use} (hu : u.renews name = true)
    {r : Record} : c.Leaves name (history ++ [u]) r ↔ u.Stores name r := by
  constructor
  · rintro ⟨before, since, hhistory, ⟨hstored, hkept⟩, -⟩
    rcases since.eq_nil_or_concat' with rfl | ⟨since, last, rfl⟩
    · rw [List.append_nil] at hhistory
      rcases hstored with ⟨earlier, last, rfl, hlast⟩ | ⟨rfl, -⟩
      · exact List.singleton_inj.1 (List.append_inj' hhistory rfl).2 ▸ hlast
      · simp at hhistory
    · rw [← List.append_assoc] at hhistory
      obtain rfl := List.singleton_inj.1 (List.append_inj' hhistory rfl).2
      exact absurd hu (Bool.eq_false_iff.1 (hkept u (by simp)))
  · intro h
    exact ⟨_, [], (List.append_nil _).symm, ⟨.inl ⟨history, u, rfl, h⟩, nofun⟩, not_missed_nil⟩

/-- A look-up that missed was the last use or came before it. -/
theorem missed_concat {before since : List Use} {u : Use} :
    c.Missed name before (since ++ [u]) ↔
      c.Missed name before since ∨ u.Misses (c.after (before ++ since)) name := by
  constructor
  · rintro ⟨seen, miss, rest, hsince, hmiss⟩
    rcases rest.eq_nil_or_concat' with rfl | ⟨rest, last, rfl⟩
    · obtain ⟨rfl, hu⟩ := List.append_inj' hsince rfl
      exact .inr (List.singleton_inj.1 hu ▸ hmiss)
    · rw [← List.cons_append, ← List.append_assoc] at hsince
      exact .inl ⟨seen, miss, rest, (List.append_inj' hsince rfl).1, hmiss⟩
  · rintro (⟨seen, miss, rest, rfl, hmiss⟩ | hmiss)
    · exact ⟨seen, miss, rest ++ [u], by simp, hmiss⟩
    · exact ⟨since, u, [], rfl, hmiss⟩

/-- Before a last use that does not renew the record, the same record is left, and the use did not
miss. -/
theorem leaves_concat_of_kept {history : List Use} {u : Use} (hu : u.renews name = false)
    {r : Record} :
    c.Leaves name (history ++ [u]) r ↔
      c.Leaves name history r ∧ ¬u.Misses (c.after history) name := by
  constructor
  · rintro ⟨before, since, hhistory, ⟨hstored, hkept⟩, hmissed⟩
    rcases since.eq_nil_or_concat' with rfl | ⟨since, last, rfl⟩
    · rw [List.append_nil] at hhistory
      rcases hstored with ⟨earlier, last, rfl, hlast⟩ | ⟨rfl, -⟩
      · obtain rfl := List.singleton_inj.1 (List.append_inj' hhistory rfl).2
        exact absurd (renews_of_stores hlast) (Bool.eq_false_iff.1 hu)
      · simp at hhistory
    · rw [← List.append_assoc] at hhistory
      obtain ⟨rfl, hlast⟩ := List.append_inj' hhistory rfl
      obtain rfl := List.singleton_inj.1 hlast
      rw [missed_concat, not_or] at hmissed
      exact ⟨⟨before, since, rfl, ⟨hstored, fun v hv => hkept v (by simp [hv])⟩, hmissed.1⟩,
        hmissed.2⟩
  · rintro ⟨⟨before, since, rfl, ⟨hstored, hkept⟩, hmissed⟩, hmiss⟩
    refine ⟨before, since ++ [u], List.append_assoc .., ⟨hstored, ?_⟩, ?_⟩
    · intro v hv
      rcases List.mem_append.1 hv with hv | hv
      · exact hkept v hv
      · exact List.mem_singleton.1 hv ▸ hu
    · rw [missed_concat, not_or]
      exact ⟨hmissed, hmiss⟩

/-- **The record a handle holds for a file is the one its history leaves.** -/
theorem lookup_after (c : Cache) (name : Bytes) (history : List Use) (r : Record) :
    (c.after history).records.lookup name = some r ↔ c.Leaves name history r := by
  induction history using List.reverseRecOn with
  | nil => exact leaves_nil.symm
  | append_singleton history u ih =>
    -- The last use settles the record alone, or leaves it unless it is a look-up that misses.
    rw [after_concat]
    cases hu : u.renews name with
    | true => rw [lookup_use_of_renews hu, leaves_concat_of_renews hu]
    | false => rw [lookup_use_of_kept hu, leaves_concat_of_kept hu, ih]

theorem maxAge_after (c : Cache) (history : List Use) :
    (c.after history).maxAge = c.ageLimit history := by
  induction history using List.reverseRecOn with
  | nil => rfl
  | append_singleton history u ih =>
    rw [after_concat, maxAge_use, ih, ageLimit, ageLimit, List.filterMap_append]
    cases hu : u.maxAge? with
    | none => simp [hu]
    | some maxAge => simp [hu]

/-- What a look-up answers, by the history of the handle. -/
theorem get_after_eq_some_iff (c : Cache) (history : List Use) (now : Int) (name content : Bytes)
    (v : Verdict) :
    ((c.after history).get now name content).1 = some v ↔
      ∃ r, c.Leaves name history r ∧ r.verdict = v ∧ r.digest = content.digest ∧
        (r.age now).toInt ≤ c.ageLimit history := by
  simp only [get_eq_some_iff, lookup_after, maxAge_after]

/-! ## Uses for other files -/

/-- Two handles cannot be told apart by what is done with a file. -/
structure Alike (name : Bytes) (c d : Cache) : Prop where
  lookup : c.records.lookup name = d.records.lookup name
  maxAge : c.maxAge = d.maxAge

/-- Handles that are alike for a file answer alike. -/
theorem Alike.get (h : Alike name c d) (now : Int) (content : Bytes) :
    (c.get now name content).1 = (d.get now name content).1 := by
  refine Option.ext fun v => ?_
  rw [get_eq_some_iff, get_eq_some_iff, h.lookup, h.maxAge]

/-- What is done with both handles keeps them alike. -/
theorem Alike.use (h : Alike name c d) (u : Use) : Alike name (c.use u) (d.use u) := by
  refine ⟨?_, by rw [maxAge_use, maxAge_use, h.maxAge]⟩
  rw [lookup_use, lookup_use, h.lookup]
  rcases u with ⟨t, now, other, content, verdict⟩ | ⟨now, other, content⟩ | maxAge | t
  · rfl
  · by_cases hother : other = name
    · subst hother
      simp only [h.get now content]
    · simp [hother]
  · rfl
  · rfl

/-- What is done with another file may be done with one of the handles only. -/
theorem Alike.use_left (h : Alike name c d) {u : Use} (hu : u.concerns name = false) :
    Alike name (c.use u) d := by
  refine ⟨?_, ?_⟩
  · rw [lookup_use, ← h.lookup]
    rcases u with ⟨t, now, other, content, verdict⟩ | ⟨now, other, content⟩ | maxAge | t
    · exact if_neg (of_decide_eq_false hu)
    · exact if_neg fun hget => of_decide_eq_false hu hget.1
    · cases hu
    · cases hu
  · rw [maxAge_use, ← h.maxAge]
    rcases u with ⟨t, now, other, content, verdict⟩ | ⟨now, other, content⟩ | maxAge | t
    · rfl
    · rfl
    · cases hu
    · cases hu

theorem Alike.after_filter (h : Alike name c d) (history : List Use) :
    Alike name (c.after history) (d.after (history.filter (·.concerns name))) := by
  induction history generalizing c d with
  | nil => exact h
  | cons u history ih =>
    cases hu : u.concerns name with
    | true =>
      rw [List.filter_cons_of_pos hu]
      exact ih (h.use u)
    | false =>
      rw [List.filter_cons_of_neg (Bool.eq_false_iff.1 hu)]
      exact ih (h.use_left hu)

/-- **What is done with other files does not matter.** -/
theorem get_after_filter (c : Cache) (history : List Use) (now : Int) (name content : Bytes) :
    ((c.after history).get now name content).1 =
      ((c.after (history.filter (·.concerns name))).get now name content).1 :=
  (Alike.after_filter ⟨rfl, rfl⟩ history).get now content

/-! ## Opening again

What a use wrote is what a new handle reads, since a flush writes all records and making a directory
that is there changes nothing. -/

/-- A use changes neither the directory of a handle nor the format of its file. -/
theorem place_use (c : Cache) (u : Use) : (c.use u).dir = c.dir ∧ (c.use u).format = c.format := by
  rcases u with ⟨t, now, other, content, verdict⟩ | ⟨now, other, content⟩ | maxAge | t
  · exact ⟨rfl, rfl⟩
  · rw [use]
    rcases c.get_cases now other content with ⟨_, _, _, h⟩ | ⟨_, _, h⟩ <;> rw [h] <;>
      exact ⟨rfl, rfl⟩
  · exact ⟨rfl, rfl⟩
  · exact ⟨rfl, rfl⟩

theorem place_after (c : Cache) (history : List Use) :
    (c.after history).dir = c.dir ∧ (c.after history).format = c.format := by
  induction history generalizing c with
  | nil => exact ⟨rfl, rfl⟩
  | cons u history ih =>
    obtain ⟨hdir, hformat⟩ := place_use c u
    exact ⟨(ih (c.use u)).1.trans hdir, (ih (c.use u)).2.trans hformat⟩

section

variable {t made tree : FileTree} {dir : Bytes} {format : Records.Format}

/-- A handle that is opened is one on the directory, with the records of its file. -/
theorem openAt_eq_ok (h : openAt t dir format = (.ok c, tree)) :
    (c.dir = dir ∧ c.format = format) ∧ t.makeDirs dir = .ok tree ∧
      load format tree dir = .ok c.records := by
  rw [openAt] at h
  rcases hdirs : t.makeDirs dir with e | made
  · simp [hdirs] at h
  rcases hload : load format made dir with e | records
  · simp [hdirs, hload] at h
  · simp only [hdirs, hload, Prod.mk.injEq, Except.ok.injEq] at h
    obtain ⟨rfl, rfl⟩ := h
    exact ⟨⟨rfl, rfl⟩, rfl, hload⟩

/-- A use that wrote the records flushed the handle it left. -/
theorem flush_of_wrote {u : Use} (h : u.Wrote c t made) : (c.use u).flush t = .ok made := by
  rcases u with ⟨t', now, other, content, verdict⟩ | ⟨now, other, content⟩ | maxAge | t'
  · obtain ⟨rfl, hset⟩ := h
    exact hset
  · exact h.elim
  · exact h.elim
  · obtain ⟨rfl, hclear⟩ := h
    exact hclear

/-- What a flush writes is the records, in the format of the handle. -/
theorem create_of_flush (h : c.flush t = .ok made) :
    t.create (path c.dir) (c.format.encode c.records) = .ok made := by
  rw [flush] at h
  split at h
  · next hcreate => rw [hcreate, Except.ok.inj h]
  · cases h

theorem load_of_read (hformat : c.format.Faithful)
    (h : t.read (path dir) = .ok (c.format.encode c.records)) :
    load c.format t dir = .ok c.records := by
  simp only [load, h, hformat c.records]

/-- **A handle that is opened on what was written holds the same records.** -/
theorem records_of_reopened (ht : t.WellFormed) (hformat : c.format.Faithful)
    (hflush : c.flush t = .ok made) {opened : Cache}
    (hopen : openAt made c.dir c.format = (.ok opened, tree)) : opened.records = c.records := by
  obtain ⟨-, hdirs, hload⟩ := openAt_eq_ok hopen
  have hread := FileTree.read_makeDirs hdirs (ht.read_create (create_of_flush hflush))
  exact Except.ok.inj (hload.symm.trans (load_of_read hformat hread))

/-- It can be opened as long as its directory is there. -/
theorem exists_reopened (ht : t.WellFormed) (hformat : c.format.Faithful)
    (hflush : c.flush t = .ok made) (hdir : t.stat c.dir = .ok .dir) :
    ∃ opened, openAt made c.dir c.format = (.ok opened, made) := by
  have hcreate := create_of_flush hflush
  have hload := load_of_read hformat (ht.read_create hcreate)
  have hstat : made.stat c.dir = .ok .dir := by
    rcases ht.create_cases (path c.dir) with ⟨error, herror⟩ | ⟨place, -, hfile, -, hmade⟩
    · exact absurd (hcreate.symm.trans (herror _)) nofun
    · rw [Except.ok.inj (hcreate.symm.trans (hmade _))]
      exact FileTree.stat_set_of_plain hfile _ hdir
  have hdirs : made.makeDirs c.dir = .ok made := by
    rw [FileTree.makeDirs, FileTree.makeDirsWithin, hstat]
  exact ⟨_, by simp only [openAt, hdirs, hload]; rfl⟩

end

/-- **A handle is a store of its history.**  Whatever could be written since it was opened, a
look-up finds the verdict that was stored last for the file, on this content and not too long ago,
unless it was cleared or a look-up missed it since; what is done with other files does not matter.
An age is a word (`Record.age`), so a limit that is the last word there is makes no record stale.
And if the last use wrote the records, in a format that is read back as it was written, a new handle
on the directory holds the same, and can be opened if the directory is there. -/
theorem handle_stores_history {format : Records.Format} {start tree : FileTree} {dir : Bytes}
    {c : Cache} (hopen : openAt start dir format = (.ok c, tree)) (history : List Use) :
    load format tree dir = .ok c.records ∧
    (∀ now name content,
      (∀ v, ((c.after history).get now name content).1 = some v ↔
        ∃ r, c.Leaves name history r ∧ r.verdict = v ∧ r.digest = content.digest ∧
          (r.age now).toInt ≤ c.ageLimit history) ∧
      ((c.after history).get now name content).1 =
        ((c.after (history.filter (·.concerns name))).get now name content).1) ∧
    (format.Faithful → ∀ earlier u t made, history = earlier ++ [u] → t.WellFormed →
      u.Wrote (c.after earlier) t made →
      (∀ opened later, openAt made dir format = (.ok opened, later) →
        opened.records = (c.after history).records) ∧
      (t.stat dir = .ok .dir → ∃ opened, openAt made dir format = (.ok opened, made))) := by
  obtain ⟨hplace, -, hload⟩ := openAt_eq_ok hopen
  refine ⟨hload, fun now name content => ⟨?_, ?_⟩, ?_⟩
  · exact get_after_eq_some_iff c history now name content
  · exact get_after_filter c history now name content
  · rintro hformat earlier u t made rfl ht hwrote
    have hflush := flush_of_wrote hwrote
    rw [← after_concat] at hflush
    obtain ⟨hdir, hkept⟩ := place_after c (earlier ++ [u])
    obtain rfl := hdir.trans hplace.1
    obtain rfl := hkept.trans hplace.2
    exact ⟨fun opened later => records_of_reopened ht hformat hflush,
      exists_reopened ht hformat hflush⟩

/-- A verdict that is stored with a tree it can be written to is found by the handle, for ever if the
limit is the last word there is, and by the next one. -/
theorem handle_stores_history_verdict :
    let t := FileTree.empty.set ["work", "c"] .dir
    let c : Cache := { dir := "c", records := [], maxAge := standardMaxAge }
    let stored : Use := .set t 0 "a.js" "x" .allMatched
    let century : Int := 100 * 365 * 24 * 60 * 60 * 1000000000
    openAt t "c" = (.ok c, t) ∧
      ((c.after [stored, .setMaxAge Int64.maxValue.toInt]).get (3 * century) "a.js" "x").1 =
        some .allMatched ∧
      ∃ made opened, stored.Wrote c t made ∧ openAt made "c" = (.ok opened, made) ∧
        opened.records = (c.after [stored]).records := by
  intro t c stored century
  have hopen : openAt t "c" = (.ok c, t) := rfl
  have ht : t.WellFormed := ⟨by decide, by decide, by decide, by decide, by decide⟩
  have hcreate : ∀ content, t.create (path "c") content =
      .ok (t.set ["work", "c", fileName] (.file content)) := fun _ => rfl
  have hwrote : stored.Wrote c t _ := ⟨rfl, by simp only [set, flush, put, c, hcreate]; rfl⟩
  obtain ⟨-, hget, -⟩ := handle_stores_history hopen [stored, .setMaxAge Int64.maxValue.toInt]
  obtain ⟨-, -, hwritten⟩ := handle_stores_history hopen [stored]
  obtain ⟨hrecords, hagain⟩ :=
    hwritten Records.Format.faithful_fields [] stored t _ rfl ht hwrote
  obtain ⟨opened, hopened⟩ := hagain rfl
  refine ⟨hopen, ?_, _, opened, hwrote, hopened, hrecords opened _ hopened⟩
  have hstores : stored.Stores "a.js" ⟨("x" : Bytes).digest, .allMatched, 0⟩ :=
    ⟨t, 0, "x", .allMatched, rfl, rfl⟩
  refine ((hget (3 * century) "a.js" "x").1 .allMatched).2
    ⟨⟨("x" : Bytes).digest, .allMatched, 0⟩, ?_⟩
  refine ⟨⟨[stored], [.setMaxAge Int64.maxValue.toInt], rfl, ⟨.inl ⟨[], stored, rfl, hstores⟩, ?_⟩,
    ?_⟩, rfl, rfl, by decide⟩
  · simp [Use.renews]
  · rintro ⟨seen, u, rest, hsince, now, content, rfl, -⟩
    have hmem : Use.get now "a.js" content ∈ [Use.setMaxAge Int64.maxValue.toInt] := by
      simp [hsince]
    simp at hmem

end Cache

end BraceBalance
