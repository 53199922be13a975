import Interlock.Script.Step

/-!
# A schedule

One way to run a world. The threads take turns in the order in which they last moved, and a turn
lasts until its thread cannot go on or lets the others go first. Two things happen at once during
somebody's turn:

  * who releases a mutex hands it over to the thread that has waited for it longest;
  * who wakes a waiter of the platform whose mutex is locked moves it over to those who wait for
    that mutex.

Whoever is woken otherwise goes on when its turn comes. Time passes with the steps, and when
nobody can go on it jumps to the next short timeout; a timer fires a little late. The run ends
when nobody can go on and no short timeout is left, and some time passes before the next one, so
that a short timeout counted from the start of a loop is over by then.

  * `Schedule`: a world and the order of its threads;
  * `World.turn`, `Schedule.round`: the turn of one thread, of all of them;
  * `Schedule.settle`: rounds until the world is quiet.
-/

namespace Interlock

namespace World

/-- How many steps a turn may take. -/
def turnLength : Nat := 10000

/-- The nanoseconds that a step takes. -/
def stepTime : Nat := 100

/-- Stack sizes from here on do not fit the address space. -/
def stackLimit : Nat := 0x8000_0000_0000

/-- Whether thread `t` is about to create a thread with a stack that cannot be had. -/
def lacksStack (w : World) (t : Tid) : Bool :=
  match w.machine.call? t with
  | some (.start r (.spawn _)) => (w.store.threads.get r).stackSize.any (stackLimit ≤ ·)
  | _ => false

/-- What the environment decides: the sleeper that has waited longest is picked, and nothing is
refused that could be had. -/
def choice (w : World) (t : Tid) : Choice := ⟨0, w.lacksStack t⟩

def isHeld (w : World) (l : LockRef) : Bool := (w.store.lock l).any LockState.isLocked

def tick (w : World) (n : Nat) : World := { w with machine := w.machine.tick n }

/-- A step of thread `t` without more. -/
def nudge (w : World) (t : Tid) : World := (w.step t (w.choice t)).1

/-- After a step of another thread, thread `t` moves on from the platform's queue to the waiters
of its mutex, if it was woken while the mutex is locked. -/
def requeue (before after : World) (t : Tid) : World :=
  match before.machine.queuedWith t, after.machine.queuedWith t with
  | some l, none => if after.isHeld l then after.nudge t else after
  | _, _ => after

/-- Whether thread `t` waits for a mutex that was released in between. -/
def isHeir (before after : World) (t : Tid) : Bool :=
  match after.machine.wanted t with
  | some l => before.isHeld l && !after.isHeld l
  | none => false

/-- A mutex that was released goes to the first thread that waits for it. -/
def handOver (before after : World) (order : List Tid) : World :=
  match order.find? (isHeir before after) with
  | some t => after.nudge t
  | none => after

/-- What happens to the other threads right after a step of thread `t`. -/
def followUp (before after : World) (t : Tid) (order : List Tid) : World :=
  let others := order.filter (· != t)
  handOver before (others.foldl (requeue before) after) others

/-- The turn of thread `t`, of at most this many steps. -/
def turn (w : World) (t : Tid) (order : List Tid) : Nat → World
  | 0 => w
  | n + 1 =>
    match w.step t (w.choice t) with
    | (after, .moved) =>
      if after.aborted then after
      else turn ((followUp w after t order).tick stepTime) t order n
    | (after, .yielded) => after.tick stepTime
    | (after, .stuck) => after

def canMove (w : World) (t : Tid) : Bool :=
  match (w.step t (w.choice t)).2 with
  | .stuck => false
  | _ => true

def nextDeadline (w : World) : Option Instant :=
  (List.range w.store.nextThread).foldl (fun best t =>
    match best, w.machine.deadline t with
    | some a, some b => some (if b.nanos < a.nanos then b else a)
    | none, d => d
    | best, none => best) none

end World

/-- A world and its threads in the order in which they last moved. -/
structure Schedule where
  world : World
  order : List Tid

namespace Schedule

/-- How many rounds a run may take. -/
def roundLimit : Nat := 1000000000

/-- By how many nanoseconds a timer fires late. -/
def timerSlack : Nat := 50000

/-- Timeouts that are further away than this many nanoseconds are not waited for. -/
def patience : Nat := 2000000000

/-- The nanoseconds that pass between two runs. -/
def pause : Nat := 100000000

/-- The schedule of a world in which nobody has moved yet. -/
def initial (w : World) : Schedule := ⟨w, List.range w.store.nextThread⟩

/-- Threads created since are the last in the order. -/
def enrolled (r : Schedule) : Schedule :=
  { r with order := r.order ++ (List.range r.world.store.nextThread).drop r.order.length }

/-- A turn for thread `t` if it can go on; it is the last in the order then. -/
def turn (r : Schedule) (t : Tid) : Schedule :=
  if r.world.aborted || !r.world.canMove t then r
  else
    ⟨r.world.turn t r.order World.turnLength, r.order.filter (· != t) ++ [t]⟩

def round (r : Schedule) : Schedule :=
  r.order.foldl turn r

def canMove (r : Schedule) : Bool := r.order.any r.world.canMove

def tick (r : Schedule) (n : Nat) : Schedule := { r with world := r.world.tick n }

/-- Runs the world until it is quiet. -/
def settle (r : Schedule) : Nat → Schedule
  | 0 => r
  | n + 1 =>
    if r.world.aborted then r
    else if r.enrolled.canMove then settle r.enrolled.round n
    else
      match r.world.nextDeadline with
      | some d =>
        let left := (d.since r.world.store.clock).nanos
        if left ≤ patience then settle (r.tick (left + timerSlack)) n else r
      | none => r

end Schedule

end Interlock
