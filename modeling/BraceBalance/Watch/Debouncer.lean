import BraceBalance.Text.Bytes

/-!
# Watch/Debouncer — one delayed call per key

Each trigger of a key puts its call off by the whole delay again.  The debouncer is told step by
step: triggers and the stop come from outside; a timer expires, then its callback is let in, where
it learns whether the debouncer was stopped, and only then its call begins.  Every one of these is a
step of its own, so steps of different keys may come in any order.
-/

namespace BraceBalance

/-- How far a timer has come. -/
inductive Phase where
  /-- It runs. -/
  | armed
  /-- It has run out, and its callback waits to be let in. -/
  | expired
  /-- Its callback was let in before any stop, and its call is about to begin. -/
  | admitted
  deriving DecidableEq

/-- A timer for a key. -/
structure Timer where
  id : Nat
  key : Bytes
  phase : Phase
  deriving DecidableEq

/-- Delayed calls, at most one of them put off per key. -/
structure Debouncer where
  /-- The timer a trigger of each key puts off, by its number. -/
  current : List (Bytes × Nat) := []
  /-- The timers whose call has not begun, in the order they were armed. -/
  timers : List Timer := []
  /-- The number of the next timer. -/
  fresh : Nat := 0
  stopped : Bool := false
  deriving DecidableEq

namespace Debouncer

/-- A step of the debouncer. -/
inductive Action where
  | trigger (key : Bytes)
  | expire (id : Nat)
  | enter (id : Nat)
  | begin (id : Nat)
  | stop
  deriving DecidableEq

/-- The timer with this number. -/
def timer? (d : Debouncer) (id : Nat) : Option Timer := d.timers.find? (·.id == id)

/-- The running timer that a trigger of this key puts off. -/
def armed? (d : Debouncer) (key : Bytes) : Option Timer := do
  let t ← d.timer? (← d.current.lookup key)
  if t.phase = .armed then some t else none

/-- The timers without the one with this number. -/
def without (d : Debouncer) (id : Nat) : List Timer := d.timers.filter (·.id ≠ id)

/-- The timers with the one of this number in another phase. -/
def inPhase (d : Debouncer) (id : Nat) (phase : Phase) : List Timer :=
  d.timers.map fun t => if t.id = id then { t with phase } else t

/-- Puts the call of a key off, or arms a timer for it if none runs. -/
def trigger (d : Debouncer) (key : Bytes) : Debouncer :=
  if d.stopped then d
  else match d.armed? key with
    | some t => { d with timers := d.without t.id ++ [t] }
    | none =>
      { d with
        current := (key, d.fresh) :: d.current.filter (·.1 ≠ key)
        timers := d.timers ++ [⟨d.fresh, key, .armed⟩]
        fresh := d.fresh + 1 }

/-- A timer runs out. -/
def expire (d : Debouncer) (id : Nat) : Debouncer :=
  match d.timer? id with
  | some t => if t.phase = .armed then { d with timers := d.inPhase id .expired } else d
  | none => d

/-- The callback of a timer that ran out is let in: the key may be armed anew, and the callback goes
on to its call unless the debouncer was stopped. -/
def enter (d : Debouncer) (id : Nat) : Debouncer :=
  match d.timer? id with
  | some t =>
    if t.phase = .expired then
      { d with
        current := d.current.filter (· ≠ (t.key, id))
        timers := if d.stopped then d.without id else d.inPhase id .admitted }
    else d
  | none => d

/-- The call of a timer begins: its key. -/
def begin (d : Debouncer) (id : Nat) : Option Bytes × Debouncer :=
  match d.timer? id with
  | some t =>
    if t.phase = .admitted then (some t.key, { d with timers := d.without id }) else (none, d)
  | none => (none, d)

/-- No timer runs any more, and none is armed from here on.  Callbacks already on their way are not
called back. -/
def stop (d : Debouncer) : Debouncer :=
  { d with
    current := []
    timers := d.timers.filter fun t => !(t.phase == .armed && d.current.contains (t.key, t.id))
    stopped := true }

/-- One step, and the key whose call it begins. -/
def step (d : Debouncer) : Action → Option Bytes × Debouncer
  | .trigger key => (none, d.trigger key)
  | .expire id => (none, d.expire id)
  | .enter id => (none, d.enter id)
  | .begin id => d.begin id
  | .stop => (none, d.stop)

/-- Steps in turn, and the keys whose calls they begin. -/
def steps (d : Debouncer) : List Action → List Bytes × Debouncer
  | [] => ([], d)
  | action :: rest =>
    let (called, d) := d.step action
    let (more, d) := d.steps rest
    (called.toList ++ more, d)

/-- The keys whose call is put off. -/
def pending (d : Debouncer) : List Bytes := d.current.map (·.1)

/-- Every timer runs out, one after the other, and its call begins before the next one runs out. -/
def settle (d : Debouncer) : List Bytes × Debouncer :=
  d.steps (d.timers.flatMap fun t => [.expire t.id, .enter t.id, .begin t.id])

end Debouncer

end BraceBalance
