import BraceBalance.Proofs.Memory
import BraceBalance.Scan.OpenStack

/-!
# Proofs/Scan/Conservation — no opener is lost or doubled

    uses ──serve──▸ cells of memory
      │                   │ entries
      └────serve──▸ stack ──entries──▸ openers held

A stack in memory is a slice that is cut short and spliced in place: what is let go of stays in the
cells behind it until an opener pushed later is written there.  `Serves` says what a use answers and
what is held after it.  A stack in memory does as it says (`StoredStack.Sound.serves`), and that
leaves no choice (`OpenStack.eq_of_serves`), so memory and stack answer alike, and every other fact
of a run is read off `Serves`.  A copy of the openers lies in an array of its own, so overwriting it
goes unseen.
-/

namespace BraceBalance

/-! ## Uses of a stack -/

/-- What is done with a stack, or with one of the copies of its openers made before. -/
inductive Use where
  | push (o : Opener)
  | pop
  | removeNearest (kind : Kind)
  | list
  | overwrite (copy index : Nat) (o : Opener)

/-- What a use answers. -/
inductive Answer where
  | done
  | opener (found : Option Opener)
  | openers (os : List Opener)
  deriving DecidableEq

/-- The opener a use pushes, if it does. -/
def Use.pushed : Use → List Opener
  | push o => [o]
  | _ => []

/-- The opener an answer hands over for good, if it does. -/
def Answer.taken : Answer → List Opener
  | opener found => found.toList
  | _ => []

/-- The answer to an attempt to take an opener.  A failed attempt leaves everything as it was. -/
def attempt {σ : Type} (s : σ) : Option (Opener × σ) → Answer × σ
  | some (o, rest) => (.opener (some o), rest)
  | none => (.opener none, s)

/-- An attempt that fails changes nothing. -/
theorem attempt_failed {σ : Type} {s : σ} {found : Option (Opener × σ)}
    (h : (attempt s found).1 = .opener none) : (attempt s found).2 = s := by
  rcases found with _ | ⟨o, rest⟩
  · rfl
  · exact absurd h nofun

/-- The answers to uses one after the other, and what they leave. -/
def serve {σ : Type} (use : σ → Use → Answer × σ) : σ → List Use → List Answer × σ
  | s, [] => ([], s)
  | s, u :: uses =>
    let (answer, s) := use s u
    let (answers, s) := serve use s uses
    (answer :: answers, s)

/-- A use of a stack.  Copies of its openers are values, which nothing can be written to. -/
def OpenStack.use (s : OpenStack) : Use → Answer × OpenStack
  | .push o => (.done, s.push o)
  | .pop => attempt s s.pop?
  | .removeNearest kind => attempt s (s.removeNearest? kind)
  | .list => (.openers s.entries, s)
  | .overwrite _ _ _ => (.done, s)

/-! ## In memory

The openers held are the first cells of an array; behind them may lie openers that were taken, which
the next push writes over. -/

/-- A stack as a slice of an array, and the copies of it that were given out. -/
structure StoredStack where
  memory : Memory Opener
  held : Slice
  copies : List Slice

namespace StoredStack

/-- Nothing held, and no cell to hold anything in. -/
def empty : StoredStack := ⟨⟨[[]]⟩, ⟨0, 0⟩, []⟩

/-- The openers held, the oldest first. -/
def entries (s : StoredStack) : List Opener := s.memory.contents s.held

/-- The first `n` openers held, with others appended to them. -/
def splice (room : Memory.Room Opener) (s : StoredStack) (n : Nat) (os : List Opener) :
    StoredStack :=
  let (memory, held) := s.memory.append room ⟨s.held.array, n⟩ os
  { s with memory, held }

/-- Appends an opener to all that are held. -/
def push (room : Memory.Room Opener) (s : StoredStack) (o : Opener) : StoredStack :=
  s.splice room s.held.length [o]

/-- Cuts the last opener off. -/
def pop? (s : StoredStack) : Option (Opener × StoredStack) :=
  s.entries.getLast?.map fun o => (o, { s with held := ⟨s.held.array, s.held.length - 1⟩ })

/-- The greatest index below a number at which there is an opener of a kind. -/
def nearest? (kind : Kind) (os : List Opener) : Nat → Option Nat
  | 0 => none
  | i + 1 => if os[i]?.any (·.kind == kind) then some i else nearest? kind os i

/-- Appends the openers behind the nearest one of a kind to those in front of it. -/
def removeNearest? (room : Memory.Room Opener) (s : StoredStack) (kind : Kind) :
    Option (Opener × StoredStack) := do
  let i ← nearest? kind s.entries s.held.length
  let o ← s.entries[i]?
  some (o, s.splice room i (s.entries.drop (i + 1)))

/-- Gives out a copy in a new array. -/
def list (s : StoredStack) : StoredStack where
  memory := s.memory.allocate s.entries
  held := s.held
  copies := s.copies ++ [⟨s.memory.arrays.length, s.held.length⟩]

/-- Writes to a cell of a copy given out. -/
def overwrite (s : StoredStack) (copy index : Nat) (o : Opener) : StoredStack :=
  match s.copies[copy]? with
  | some c =>
    if index < c.length then { s with memory := s.memory.modify c.array (·.set index o) } else s
  | none => s

/-- A use of a stack in memory. -/
def use (room : Memory.Room Opener) (s : StoredStack) : Use → Answer × StoredStack
  | .push o => (.done, s.push room o)
  | .pop => attempt s s.pop?
  | .removeNearest kind => attempt s (s.removeNearest? room kind)
  | .list => (.openers s.entries, s.list)
  | .overwrite copy index o => (.done, s.overwrite copy index o)

end StoredStack

/-! ## What a use is to answer

This says which opener a use takes and which are held after it, and nothing of how. -/

/-- What a use answers, given the openers held before it, and which are held after it.  The opener
that is taken is the last one, or the last one of a kind. -/
inductive Serves : List Opener → Use → Answer → List Opener → Prop
  | push {held : List Opener} {o : Opener} : Serves held (.push o) .done (held ++ [o])
  | pop {held : List Opener} {o : Opener} : Serves (held ++ [o]) .pop (.opener (some o)) held
  | popNothing : Serves [] .pop (.opener none) []
  | remove {older newer : List Opener} {o : Opener} {kind : Kind} (of_kind : o.kind = kind)
      (newest : ∀ other ∈ newer, other.kind ≠ kind) :
      Serves (older ++ o :: newer) (.removeNearest kind) (.opener (some o)) (older ++ newer)
  | removeNothing {held : List Opener} {kind : Kind} (unheld : ∀ o ∈ held, o.kind ≠ kind) :
      Serves held (.removeNearest kind) (.opener none) held
  | list {held : List Opener} : Serves held .list (.openers held) held
  | overwrite {held : List Opener} {copy index : Nat} {o : Opener} :
      Serves held (.overwrite copy index o) .done held

namespace Serves

variable {held held' : List Opener} {u : Use} {answer : Answer}

/-- What is held after a use and what it takes is what was held before and what it pushes. -/
theorem perm (h : Serves held u answer held') :
    (held' ++ answer.taken).Perm (held ++ u.pushed) := by
  cases h with
  | push => exact List.Perm.of_eq (List.append_nil _)
  | pop => exact List.Perm.of_eq (List.append_nil _).symm
  | @remove older newer o _ _ _ =>
    change (older ++ newer ++ [o]).Perm (older ++ o :: newer ++ [])
    rw [List.append_nil]
    exact (List.perm_append_singleton _ _).trans List.perm_middle.symm
  | _ => exact List.Perm.refl _

/-- Nothing changes places. -/
theorem sublist (h : Serves held u answer held') : held'.Sublist (held ++ u.pushed) := by
  cases h with
  | push => exact List.Sublist.refl _
  | pop => exact (List.sublist_append_left _ _).trans (List.sublist_append_left _ _)
  | remove _ _ =>
    exact ((List.Sublist.refl _).append (List.sublist_cons_self _ _)).trans
      (List.sublist_append_left _ _)
  | _ => exact List.sublist_append_left _ _

end Serves

/-! ## The stack -/

namespace OpenStack

theorem eq_reverse_entries (s : OpenStack) : s = ⟨s.entries.reverse⟩ := by
  rw [entries, List.reverse_reverse]

theorem entries_reverse (os : List Opener) : entries ⟨os.reverse⟩ = os := List.reverse_reverse os

/-- The newest opener of a kind is taken out from among the others. -/
theorem removeNearest?_of_newest {older newer : List Opener} {o : Opener} {kind : Kind}
    (hkind : o.kind = kind) (hnewest : ∀ other ∈ newer, other.kind ≠ kind) :
    removeNearest? ⟨(older ++ o :: newer).reverse⟩ kind =
      some (o, ⟨(older ++ newer).reverse⟩) := by
  have hnewer : ∀ other ∈ newer.reverse, ¬ (other.kind == kind) = true := fun other hother =>
    mt beq_iff_eq.1 (hnewest other (List.mem_reverse.1 hother))
  have hfind : newer.reverse.find? (·.kind == kind) = none := List.find?_eq_none.2 hnewer
  rw [removeNearest?, List.reverse_append, List.reverse_cons, List.append_assoc,
    List.singleton_append, List.find?_append, hfind, List.eraseP_append_right _ hnewer]
  simp [hkind]

/-- An opener of a kind that is not held cannot be taken. -/
theorem removeNearest?_of_unheld {s : OpenStack} {kind : Kind}
    (h : ∀ o ∈ s.entries, o.kind ≠ kind) : s.removeNearest? kind = none := by
  rw [removeNearest?, Option.map_eq_none_iff, List.find?_eq_none]
  exact fun o ho => mt beq_iff_eq.1 (h o (List.mem_reverse.2 ho))

/-- **A stack does what it is to do**, and there is one such thing only. -/
theorem eq_of_serves {s : OpenStack} {u : Use} {answer : Answer} {held : List Opener}
    (h : Serves s.entries u answer held) :
    (s.use u).1 = answer ∧ (s.use u).2.entries = held := by
  have hs := s.eq_reverse_entries
  generalize s.entries = before at h hs
  subst hs
  cases h with
  | push => exact ⟨rfl, by rw [use, entries_push, entries_reverse]⟩
  | @pop held o =>
    have hpop : pop? ⟨(held ++ [o]).reverse⟩ = some (o, ⟨held.reverse⟩) := by
      rw [List.reverse_concat]
      rfl
    rw [use, hpop]
    exact ⟨rfl, entries_reverse held⟩
  | popNothing => exact ⟨rfl, rfl⟩
  | remove hkind hnewest =>
    rw [use, removeNearest?_of_newest hkind hnewest]
    exact ⟨rfl, entries_reverse _⟩
  | removeNothing hunheld =>
    rw [use, removeNearest?_of_unheld (by rwa [entries_reverse])]
    exact ⟨rfl, entries_reverse _⟩
  | list => exact ⟨congrArg Answer.openers (entries_reverse _), entries_reverse _⟩
  | overwrite => exact ⟨rfl, entries_reverse _⟩

end OpenStack

/-! ## The stack in memory

Copies lie in arrays of their own, so no write to a copy meets a cell of the stack and none to the
stack meets a copy. -/

namespace StoredStack

variable {room : Memory.Room Opener} {s : StoredStack}

/-- The array of the openers held is there, and none of the copies lies in it. -/
structure Sound (s : StoredStack) : Prop where
  held : s.memory.Has s.held
  copies : ∀ c ∈ s.copies, c.array < s.memory.arrays.length ∧ c.array ≠ s.held.array

/-- A stack with nothing in it is sound. -/
theorem sound_empty : empty.Sound := ⟨⟨Nat.zero_lt_one, Nat.le_refl 0⟩, nofun⟩

/-- Appending to the first openers leaves just these and those appended, whether or not there is
room behind them in the array. -/
theorem Sound.splice (h : s.Sound) (room : Memory.Room Opener) {n : Nat} (hn : n ≤ s.held.length)
    (os : List Opener) :
    (s.splice room n os).Sound ∧ (s.splice room n os).entries = s.entries.take n ++ os := by
  obtain ⟨hcut, hcontents⟩ := h.held.take hn
  obtain ⟨hhas, happend⟩ := Memory.contents_append hcut room os
  refine ⟨⟨hhas, fun c hc => ⟨?_, ?_⟩⟩, ?_⟩
  · exact Nat.lt_of_lt_of_le (h.copies c hc).1 (Memory.length_le_append _ _ _ _)
  · rcases Memory.append_array room s.memory ⟨s.held.array, n⟩ os with heq | heq
    · exact heq ▸ (h.copies c hc).2
    · exact heq ▸ Nat.ne_of_lt (h.copies c hc).1
  · rw [entries, entries, ← hcontents]
    exact happend

theorem Sound.length_entries (h : s.Sound) : s.entries.length = s.held.length :=
  h.held.length_contents

/-- A push puts one opener behind all others. -/
theorem Sound.push (h : s.Sound) (room : Memory.Room Opener) (o : Opener) :
    (s.push room o).Sound ∧ (s.push room o).entries = s.entries ++ [o] := by
  obtain ⟨hsound, hentries⟩ := h.splice room (Nat.le_refl _) [o]
  rw [List.take_of_length_le (Nat.le_of_eq h.length_entries)] at hentries
  exact ⟨hsound, hentries⟩

/-- A pop takes the last opener, and its cell stays behind. -/
theorem Sound.pop? (h : s.Sound) : (s.entries = [] ∧ s.pop? = none) ∨
    ∃ os o rest, s.entries = os ++ [o] ∧ s.pop? = some (o, rest) ∧ rest.Sound ∧
      rest.entries = os := by
  rcases List.eq_nil_or_concat' s.entries with hnil | ⟨os, o, hconcat⟩
  · refine .inl ⟨hnil, ?_⟩
    rw [StoredStack.pop?, hnil]
    rfl
  · obtain ⟨hhas, hcontents⟩ := h.held.take (Nat.sub_le s.held.length 1)
    refine .inr ⟨os, o, { s with held := ⟨s.held.array, s.held.length - 1⟩ }, hconcat, ?_,
      ⟨hhas, h.copies⟩, ?_⟩
    · rw [StoredStack.pop?, hconcat, List.getLast?_concat]
      rfl
    · rw [entries, hcontents, ← entries, ← h.length_entries, hconcat, List.length_append,
        List.length_singleton, Nat.add_sub_cancel, List.take_left]

/-- The index that is found is the last of its kind. -/
theorem nearest?_eq_some {kind : Kind} {os : List Opener} {n i : Nat}
    (h : nearest? kind os n = some i) :
    i < n ∧ (∃ o, os[i]? = some o ∧ o.kind = kind) ∧
      ∀ j o, i < j → j < n → os[j]? = some o → o.kind ≠ kind := by
  induction n with
  | zero => exact absurd h nofun
  | succ n ih =>
    rw [nearest?] at h
    split_ifs at h with hfound
    · obtain rfl : n = i := Option.some.inj h
      obtain ⟨o, ho, hkind⟩ := (Option.any_eq_true _ _).1 hfound
      exact ⟨Nat.lt_succ_self n, ⟨o, ho, beq_iff_eq.1 hkind⟩, fun j o hij hj => by omega⟩
    · obtain ⟨hlt, hfirst, hlater⟩ := ih h
      refine ⟨Nat.lt_succ_of_lt hlt, hfirst, fun j o hij hj hjo => ?_⟩
      rcases Nat.lt_succ_iff_lt_or_eq.1 hj with hj | rfl
      · exact hlater j o hij hj hjo
      · rw [hjo] at hfound
        exact mt beq_iff_eq.2 hfound

/-- Where no index is found there is none. -/
theorem nearest?_eq_none {kind : Kind} {os : List Opener} {n : Nat}
    (h : nearest? kind os n = none) (j : Nat) (hj : j < n) (o : Opener) (hjo : os[j]? = some o) :
    o.kind ≠ kind := by
  induction n with
  | zero => exact absurd hj (Nat.not_lt_zero j)
  | succ n ih =>
    rw [nearest?] at h
    split_ifs at h with hfound
    rcases Nat.lt_succ_iff_lt_or_eq.1 hj with hj | rfl
    · exact ih h hj
    · rw [hjo] at hfound
      exact mt beq_iff_eq.2 hfound

/-- Removing an opener of a kind takes the newest of them, and those behind it move up. -/
theorem Sound.removeNearest? (h : s.Sound) (room : Memory.Room Opener) (kind : Kind) :
    ((∀ o ∈ s.entries, o.kind ≠ kind) ∧ s.removeNearest? room kind = none) ∨
    ∃ older o newer rest, s.entries = older ++ o :: newer ∧ o.kind = kind ∧
      (∀ other ∈ newer, other.kind ≠ kind) ∧ s.removeNearest? room kind = some (o, rest) ∧
      rest.Sound ∧ rest.entries = older ++ newer := by
  rcases hnearest : nearest? kind s.entries s.held.length with _ | i
  · refine .inl ⟨fun o ho => ?_, ?_⟩
    · obtain ⟨j, hj⟩ := List.mem_iff_getElem?.1 ho
      exact nearest?_eq_none hnearest j
        (h.length_entries ▸ (List.getElem?_eq_some_iff.1 hj).1) o hj
    · rw [StoredStack.removeNearest?, hnearest]
      rfl
  · obtain ⟨hlt, ⟨o, ho, hkind⟩, hlater⟩ := nearest?_eq_some hnearest
    obtain ⟨hsound, hentries⟩ := h.splice room (Nat.le_of_lt hlt) (s.entries.drop (i + 1))
    obtain ⟨hi, hget⟩ := List.getElem?_eq_some_iff.1 ho
    refine .inr ⟨s.entries.take i, o, s.entries.drop (i + 1),
      s.splice room i (s.entries.drop (i + 1)), ?_, hkind, fun other hother => ?_, ?_, hsound,
      hentries⟩
    · rw [← hget, ← List.drop_eq_getElem_cons hi, List.take_append_drop]
    · obtain ⟨j, hj⟩ := List.mem_iff_getElem?.1 hother
      rw [List.getElem?_drop] at hj
      have hlast := (List.getElem?_eq_some_iff.1 hj).1
      rw [h.length_entries] at hlast
      exact hlater (i + 1 + j) other (by omega) hlast hj
    · rw [StoredStack.removeNearest?, hnearest, Option.bind_eq_bind, Option.bind_some, ho]
      rfl

/-- A copy lies in an array of its own. -/
theorem Sound.list (h : s.Sound) : s.list.Sound ∧ s.list.entries = s.entries := by
  refine ⟨⟨h.held.allocate _, fun c hc => ?_⟩, Memory.contents_allocate h.held _⟩
  change c.array < (s.memory.allocate s.entries).arrays.length ∧ c.array ≠ s.held.array
  rw [Memory.length_allocate]
  rcases List.mem_append.1 hc with hc | hc
  · exact ⟨Nat.lt_succ_of_lt (h.copies c hc).1, (h.copies c hc).2⟩
  · rw [List.mem_singleton.1 hc]
    exact ⟨Nat.lt_succ_self _, (Nat.ne_of_lt h.held.array_lt).symm⟩

/-- **What is written to a copy is not written to the stack.** -/
theorem Sound.overwrite (h : s.Sound) (copy index : Nat) (o : Opener) :
    (s.overwrite copy index o).Sound ∧ (s.overwrite copy index o).entries = s.entries := by
  rw [StoredStack.overwrite]
  split
  · next c hc =>
    have hne := (h.copies c (List.mem_of_getElem? hc)).2
    split_ifs
    · refine ⟨⟨h.held.modify_other hne.symm _, fun c' hc' => ?_⟩,
        Memory.contents_modify_other hne.symm _⟩
      change c'.array < (s.memory.modify _ _).arrays.length ∧ _
      rw [Memory.length_modify]
      exact h.copies c' hc'
    · exact ⟨h, rfl⟩
  · exact ⟨h, rfl⟩

/-- **A stack in memory does what a stack is to do**, and stays sound. -/
theorem Sound.serves (h : s.Sound) (room : Memory.Room Opener) (u : Use) :
    (s.use room u).2.Sound ∧ Serves s.entries u (s.use room u).1 (s.use room u).2.entries := by
  cases u with
  | push o =>
    obtain ⟨hsound, hentries⟩ := h.push room o
    rw [use, hentries]
    exact ⟨hsound, .push⟩
  | pop =>
    rcases h.pop? with ⟨hnil, hpop⟩ | ⟨os, o, rest, hconcat, hpop, hsound, hentries⟩
    · rw [use, hpop, attempt, hnil]
      exact ⟨h, .popNothing⟩
    · rw [use, hpop, attempt, hconcat, hentries]
      exact ⟨hsound, .pop⟩
  | removeNearest kind =>
    rcases h.removeNearest? room kind with
      ⟨hunheld, hremove⟩ | ⟨older, o, newer, rest, hsplit, hkind, hnewest, hremove, hsound, hentries⟩
    · rw [use, hremove, attempt]
      exact ⟨h, .removeNothing hunheld⟩
    · rw [use, hremove, attempt, hsplit, hentries]
      exact ⟨hsound, .remove hkind hnewest⟩
  | list =>
    obtain ⟨hsound, hentries⟩ := h.list
    rw [use, hentries]
    exact ⟨hsound, .list⟩
  | overwrite copy index o =>
    obtain ⟨hsound, hentries⟩ := h.overwrite copy index o
    rw [use, hentries]
    exact ⟨hsound, .overwrite⟩

/-! ## Runs -/

/-- A stack in memory and a stack that holds the same openers answer alike, use by use. -/
theorem Sound.serve_eq (h : s.Sound) (room : Memory.Room Opener) {t : OpenStack}
    (ht : t.entries = s.entries) (uses : List Use) :
    (serve (use room) s uses).1 = (serve OpenStack.use t uses).1 ∧
      (serve (use room) s uses).2.entries = (serve OpenStack.use t uses).2.entries ∧
      (serve (use room) s uses).2.Sound := by
  induction uses generalizing s t with
  | nil => exact ⟨rfl, ht.symm, h⟩
  | cons u uses ih =>
    obtain ⟨hsound, hserves⟩ := h.serves room u
    obtain ⟨hanswer, hentries⟩ := OpenStack.eq_of_serves (ht ▸ hserves)
    obtain ⟨hanswers, hrest⟩ := ih hsound hentries
    exact ⟨List.cons_eq_cons.2 ⟨hanswer.symm, hanswers⟩, hrest⟩

/-- **A run neither loses nor doubles an opener, and changes no order.** -/
theorem Sound.conserves (h : s.Sound) (room : Memory.Room Opener) (uses : List Use) :
    let run := serve (use room) s uses
    (run.2.entries ++ run.1.flatMap Answer.taken).Perm (s.entries ++ uses.flatMap Use.pushed) ∧
      run.2.entries.Sublist (s.entries ++ uses.flatMap Use.pushed) := by
  induction uses generalizing s with
  | nil => exact ⟨List.Perm.refl _, List.sublist_append_left _ _⟩
  | cons u uses ih =>
    obtain ⟨hsound, hserves⟩ := h.serves room u
    obtain ⟨hperm, hsublist⟩ := ih hsound
    have hstep := hserves.perm.append_right (uses.flatMap Use.pushed)
    rw [List.append_assoc, List.append_assoc] at hstep
    simp only [serve, List.flatMap_cons]
    refine ⟨?_, ?_⟩
    · -- What the first use takes changes places with what is held in the end, and back.
      have hfirst := List.perm_append_comm_assoc (serve (use room) (s.use room u).2 uses).2.entries
        (s.use room u).1.taken ((serve (use room) (s.use room u).2 uses).1.flatMap Answer.taken)
      have hback := List.perm_append_comm_assoc (s.use room u).1.taken (s.use room u).2.entries
        (uses.flatMap Use.pushed)
      exact hfirst.trans ((hperm.append_left _).trans (hback.trans hstep))
    · rw [← List.append_assoc]
      exact hsublist.trans (hserves.sublist.append_right _)

end StoredStack

/-- **No opener is lost or doubled**, however the three ways to change a stack follow one another
and whatever is written to copies of its openers in between; this holds of the cells in memory that
are spliced and written again, wherever there is room for them.  The openers held and those taken
are the ones pushed; those held are in the order in which they were pushed.  Each use answers as it
is to and an attempt that fails leaves the memory as it was; writing to a copy changes no later
answer; and all answers and openers are those of a stack that is a value. -/
theorem openers_conserved (room : Memory.Room Opener) (uses : List Use) :
    let run := serve (StoredStack.use room) .empty uses
    (run.2.entries ++ run.1.flatMap Answer.taken).Perm (uses.flatMap Use.pushed) ∧
    run.2.entries.Sublist (uses.flatMap Use.pushed) ∧
    (∀ u, Serves run.2.entries u (run.2.use room u).1 (run.2.use room u).2.entries ∧
      ((run.2.use room u).1 = .opener none → (run.2.use room u).2 = run.2)) ∧
    (∀ copy index o later, (serve (StoredStack.use room) (run.2.overwrite copy index o) later).1 =
      (serve (StoredStack.use room) run.2 later).1) ∧
    run.1 = (serve OpenStack.use .empty uses).1 ∧
    run.2.entries = (serve OpenStack.use .empty uses).2.entries := by
  intro run
  have hempty := StoredStack.sound_empty
  obtain ⟨hperm, hsublist⟩ := hempty.conserves room uses
  obtain ⟨hanswers, hentries, hsound⟩ := hempty.serve_eq room (t := .empty) rfl uses
  refine ⟨hperm, hsublist, fun u => ⟨(hsound.serves room u).2, fun hfailed => ?_⟩,
    fun copy index o later => ?_, hanswers, hentries⟩
  · cases u with
    | pop => exact attempt_failed hfailed
    | removeNearest kind => exact attempt_failed hfailed
    | _ => exact absurd hfailed nofun
  · obtain ⟨hwritten, hsame⟩ := hsound.overwrite copy index o
    -- Both answer as the stack does that holds the same openers.
    rw [(hwritten.serve_eq room (hentries.symm.trans hsame.symm) later).1,
      (hsound.serve_eq room hentries.symm later).1]

/-- An interpolation removed from under two braces leaves its cell to the first of them; the next
opener goes to the cell of the second, whose trace stays in the cell behind it. -/
theorem openers_conserved_spliced :
    let brace (n : Nat) : Opener := ⟨⟨1, n⟩, .brace⟩
    let template (n : Nat) : Opener := ⟨⟨1, n⟩, .interpolation⟩
    let use := StoredStack.use fun _ _ => [brace 0]
    let run := serve use .empty [.push (template 1), .push (brace 2), .push (brace 3), .list,
      .removeNearest .interpolation, .pop, .overwrite 0 1 (brace 9), .push (brace 4)]
    run.2.memory.arrays = [[], [template 1, brace 2], [brace 2, brace 4, brace 3, brace 0],
      [template 1, brace 9, brace 3]] ∧
    (run.2.entries ++ [template 1, brace 3]).Perm
      [template 1, brace 2, brace 3, brace 4] ∧
    (use run.2 (.removeNearest .interpolation)).2 = run.2 := by
  intro brace template use run
  obtain ⟨hperm, -, hserves, -⟩ := openers_conserved (fun _ _ => [brace 0])
    [.push (template 1), .push (brace 2), .push (brace 3), .list, .removeNearest .interpolation,
      .pop, .overwrite 0 1 (brace 9), .push (brace 4)]
  have htaken : run.1.flatMap Answer.taken = [template 1, brace 3] := by decide
  have hnone : (use run.2 (.removeNearest .interpolation)).1 = .opener none := by decide
  exact ⟨by decide, htaken ▸ hperm, (hserves _).2 hnone⟩

end BraceBalance
