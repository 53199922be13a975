import Interlock.Call

/-!
# The machine

The shared store and, for every thread, the calls it has in progress. A call that runs code of
its client may have further calls on top of it, so the calls of a thread form a stack with the
innermost call first.

  * `Machine.begin` puts a call on the stack of a thread;
  * `Machine.advance` takes one atomic step of a thread's innermost call and tells the client
    what came of it;
  * `Machine.endBody` tells a call that the code it ran has ended.

Nothing here chooses who moves: any thread may be advanced at any moment.
-/

namespace Interlock

/-- The store and the calls in progress. -/
structure Machine where
  store : Store
  /-- The calls of every thread, innermost first. -/
  calls : Table (List Call)

/-- What the client of a thread learns from a step of its innermost call. -/
inductive Notice where
  | working
  /-- The call runs its client's code now. -/
  | body
  | replied (r : Reply)
  | panicked (why : Panic)
  | blocked
  | aborted
  deriving DecidableEq

/-- The thread that a start has just created, and its identity. -/
def Call.child? : Call → Option (Tid × ThreadId)
  | .start _ (.record id child) => some (child, id)
  | _ => none

namespace Machine

/-- No object exists, and only thread 0 runs. -/
def initial : Machine := ⟨.initial, .empty⟩

instance : Inhabited Machine := ⟨initial⟩

def begin (m : Machine) (t : Tid) (call : Call) : Machine :=
  { m with calls := m.calls.set t (call :: m.calls.get t) }

/-- The code run by the innermost call of thread `t` has ended. -/
def endBody (m : Machine) (t : Tid) (e : BodyEnd) : Machine :=
  match m.calls.get t with
  | [] => m
  | call :: outer => { m with calls := m.calls.set t (call.resume e :: outer) }

/-- A thread created by a call begins by installing its identity. -/
def adopt (m : Machine) : Option (Tid × ThreadId) → Machine
  | some (child, id) => { m with calls := m.calls.set child [.install id] }
  | none => m

/-- One atomic step of the innermost call of thread `t`. -/
def advance (m : Machine) (t : Tid) (choice : Choice) : Machine × Notice :=
  match m.calls.get t with
  | [] => (m, .blocked)
  | call :: outer =>
    match call.step t choice m.store with
    | .next s call =>
      (Machine.adopt ⟨s, m.calls.set t (call :: outer)⟩ call.child?,
        if call.atBody then .body else .working)
    | .done s reply => (⟨s, m.calls.set t outer⟩, .replied reply)
    | .fault s why => (⟨s, m.calls.set t outer⟩, .panicked why)
    | .blocked => (m, .blocked)
    | .abort s => (⟨s, m.calls.set t outer⟩, .aborted)

/-- The machine after `n` nanoseconds without a step. -/
def tick (m : Machine) (n : Nat) : Machine :=
  { m with store := { m.store with clock := m.store.clock.advance n } }

/-! ## What blocks a thread -/

def call? (m : Machine) (t : Tid) : Option Call := (m.calls.get t).head?

/-- The deadline on which the innermost call of thread `t` may end by itself. -/
def deadline (m : Machine) (t : Tid) : Option Instant :=
  match m.call? t with
  | some (.wait _ _ _ (.native (.queued _ d))) => d
  | some (.wait _ _ _ (.fallback (.parked d))) => d
  | some (.waitWhile _ _ _ (.waiting _ _ (.native (.queued _ d)))) => d
  | some (.waitWhile _ _ _ (.waiting _ _ (.fallback (.parked d)))) => d
  | some (.listen _ _ (.asleep d)) => d
  | _ => none

/-- The mutex that thread `t` is about to take. -/
def wanted (m : Machine) (t : Tid) : Option LockRef :=
  match m.call? t with
  | some (.lock l (.take _)) => some l
  | some (.scope l (.locking (.take _))) => some l
  | some (.unlocked l (.relocking (.take _) _)) => some l
  | some (.wait _ l _ (.native (.retake _ _))) => some l
  | some (.wait _ l _ (.fallback (.locking (.take _) _))) => some l
  | some (.waitWhile _ l _ (.waiting _ _ (.native (.retake _ _)))) => some l
  | some (.waitWhile _ l _ (.waiting _ _ (.fallback (.locking (.take _) _)))) => some l
  | some (.once o (.locking (.take _))) => some (m.store.onces.get o).lock
  | _ => none

/-- The mutex that thread `t` released to wait in the platform's queue, while it is in it. -/
def queuedWith (m : Machine) (t : Tid) : Option LockRef :=
  match m.call? t with
  | some (.wait c l _ (.native (.queued _ _)))
  | some (.waitWhile c l _ (.waiting _ _ (.native (.queued _ _)))) =>
    match m.store.conds.get c with
    | .native q => if q.waiting t then some l else none
    | _ => none
  | _ => none

end Machine

end Interlock
