import BraceBalance.Cache.Record
import BraceBalance.Digest
import BraceBalance.Failure
import BraceBalance.FileTree.Update

/-!
# Cache/Basic — verdicts of unchanged files

A cache is a handle on a directory.  It holds its records in memory; storing a verdict and clearing
write all of them to the directory's file, looking one up does not, even when it drops a stale one.
Times are in nanoseconds and given by the caller; an age is a word of 64 bits, so that no record is
older than some 292 years.
-/

namespace BraceBalance

/-- How old a record is.  An age that does not fit into a word is told as the last one that does. -/
def Record.age (r : Record) (now : Int) : Int64 := .ofIntClamp (now - r.scannedAt)

theorem Record.toInt_age (r : Record) (now : Int) : (r.age now).toInt =
    max Int64.minValue.toInt (min Int64.maxValue.toInt (now - r.scannedAt)) := by
  have hends : Int64.minValue.toInt ≤ Int64.maxValue.toInt := by decide
  rw [age, Int64.ofIntClamp]
  split
  · split
    · rw [Int64.toInt_ofIntLE]
      omega
    · omega
  · omega

/-- No record gets younger. -/
theorem Record.age_mono (r : Record) {now later : Int} (h : now ≤ later) :
    (r.age now).toInt ≤ (r.age later).toInt := by
  rw [toInt_age, toInt_age]
  omega

/-- A handle on a directory of verdicts. -/
structure Cache where
  dir : Bytes
  records : Records
  /-- The age past which a record is stale. -/
  maxAge : Int
  /-- How the records are kept in the directory's file. -/
  format : Records.Format := .fields

namespace Cache

/-- The name of the file the records are kept in. -/
def fileName : Bytes := "brace_cache.gob"

/-- The age past which a record is stale, unless another is set: a day. -/
def standardMaxAge : Int := 24 * 60 * 60 * 1000000000

/-- The path of the file the records are kept in. -/
def path (dir : Bytes) : Bytes := Path.join dir fileName

/-- The records kept in a directory; none if it has no file of them. -/
def load (format : Records.Format) (t : FileTree) (dir : Bytes) : Except Failure Records :=
  match t.read (path dir) with
  | .ok content =>
    match format.decode? content with
    | some records => .ok records
    | none => .error (.cacheUnreadable none)
  | .error error =>
    if error.cause = .notFound then .ok [] else .error (.cacheUnreadable (some error))

/-- A new handle on a directory, which is made if it is not there.  A failure to load leaves the
directory made. -/
def openAt (t : FileTree) (dir : Bytes) (format : Records.Format := .fields) :
    Except Failure Cache × FileTree :=
  match t.makeDirs dir with
  | .error error => (.error (.path .makingCacheDirectory error), t)
  | .ok t =>
    match load format t dir with
    | .ok records => (.ok { dir, records, maxAge := standardMaxAge, format }, t)
    | .error failure => (.error failure, t)

/-- Writes the records to the directory's file. -/
def flush (c : Cache) (t : FileTree) : Except Failure FileTree :=
  match t.create (path c.dir) (c.format.encode c.records) with
  | .ok t => .ok t
  | .error error => .error (.path .creatingCacheFile error)

/-- The cache without the record of a file. -/
def drop (c : Cache) (name : Bytes) : Cache :=
  { c with records := c.records.filter (·.1 ≠ name) }

/-- The cache with a record for a file, in place of any other. -/
def put (c : Cache) (name : Bytes) (r : Record) : Cache :=
  { c with records := (name, r) :: (c.drop name).records }

/-- Stores the verdict on a file's content.  The record is in memory even if it cannot be
written. -/
def set (c : Cache) (t : FileTree) (now : Int) (name content : Bytes) (verdict : Verdict) :
    Cache × Except Failure FileTree :=
  let c := c.put name ⟨content.digest, verdict, now⟩
  (c, c.flush t)

/-- Whether a record still stands for this content. -/
def fresh (c : Cache) (now : Int) (content : Bytes) (r : Record) : Bool :=
  (r.age now).toInt ≤ c.maxAge && r.digest == content.digest

/-- The verdict stored for a file, if it was found on this content and is not stale.  A record that
is no longer good is dropped from memory. -/
def get (c : Cache) (now : Int) (name content : Bytes) : Option Verdict × Cache :=
  match c.records.lookup name with
  | none => (none, c)
  | some r => if c.fresh now content r then (some r.verdict, c) else (none, c.drop name)

/-- Drops every record, in memory and in the file. -/
def clear (c : Cache) (t : FileTree) : Cache × Except Failure FileTree :=
  let c := { c with records := [] }
  (c, c.flush t)

end Cache

end BraceBalance
