import Interlock.Progress

/-!
# Initializing and destroying objects

  * `initMutexStep`, `initCondStep`: an object is initialized once;
  * `destroy`: the object goes away, and its destructor reports what is wrong with it. A
    violation found while the thread unwinds is only logged; otherwise it is logged and panics.

A mutex shared by several monitors goes away with the last of them, before the condition variable
of that monitor.
-/

namespace Interlock

def initMutexStep {φ : Type} (l : LockRef) (s : Store) : Progress φ Unit :=
  if (s.lock l).isSome then s.violate .mutexInitializedTwice
  else .done (s.setLock l .free) ()

def initCondStep {φ : Type} (c : CondRef) (backend : Backend) (s : Store) : Progress φ Unit :=
  if (s.conds.get c).isInitialized then s.violate .conditionInitializedTwice
  else .done (s.setCond c (.new backend)) ()

inductive Object where
  | mutex (l : LockRef)
  | condition (c : CondRef)
  | once (o : OnceRef)
  | monitor (mo : MonitorRef)
  | semaphore (r : SemaphoreRef)
  | events (e : EventsRef)
  | thread (r : ThreadRef)
  deriving DecidableEq

/-! ## What destructors find -/

/-- What the destructor of a mutex finds wrong. -/
def Mutex.dropViolation (m : Mutex) : Option Violation :=
  match m.state with
  | none => some .mutexNeverInitialized
  | some lock => if lock.isLocked then some (.mutexDroppedHeld lock.owner) else none

/-- What the destructor of a condition variable finds wrong. -/
def Condition.dropViolation : Condition → Option Violation
  | .fallback f => if f.isQuiescent then none else some (.conditionDropped f)
  | _ => none

/-- What the destructor of a thread object finds wrong. -/
def Thread.dropViolation (th : Thread) : Option Violation :=
  if th.running then some (.threadDroppedRunning th.id) else none

namespace Store

/-- A destructor's finding is logged, and panics unless the thread unwinds already. -/
def reportDrop (s : Store) (unwinding : Bool) : Option Violation → Store × Option Panic
  | none => (s, none)
  | some v => (s.report (.violation v), if unwinding then none else some (.violation v))

def destroyMutex (s : Store) (l : LockRef) (unwinding : Bool) : Store × Option Panic :=
  (s.setMutex l .raw).reportDrop unwinding (s.locks.get l).dropViolation

def destroyCond (s : Store) (c : CondRef) (unwinding : Bool) : Store × Option Panic :=
  (s.setCond c .raw).reportDrop unwinding (s.conds.get c).dropViolation

/-- Gives up one use of the mutex `l` of a monitor; the last use destroys it. -/
def releaseShare (s : Store) (l : LockRef) (unwinding : Bool) : Store × Option Panic :=
  let users := s.lockUsers.get l
  let s := { s with lockUsers := s.lockUsers.set l (users - 1) }
  if users ≤ 1 then s.destroyMutex l unwinding else (s, none)

/-- Destroys monitor `mo`: its share of the mutex first, then its condition variable. -/
def destroyMonitor (s : Store) (mo : MonitorRef) (unwinding : Bool) : Store × Option Panic :=
  let monitor := s.monitors.get mo
  let (s, first) := s.releaseShare monitor.lock unwinding
  let (s, second) := s.destroyCond monitor.cond (unwinding || first.isSome)
  (s, first.or second)

def destroy (s : Store) (object : Object) (unwinding : Bool) : Store × Option Panic :=
  match object with
  | .mutex l => s.destroyMutex l unwinding
  | .condition c => s.destroyCond c unwinding
  | .once o => s.destroyMutex (s.onces.get o).lock unwinding
  | .monitor mo => s.destroyMonitor mo unwinding
  | .semaphore _ => (s, none)
  | .events _ => (s, none)
  | .thread r => s.reportDrop unwinding (s.threads.get r).dropViolation

end Store

/-- Destroys an object in one step. -/
def destroyStep {φ : Type} (object : Object) (unwinding : Bool) (s : Store) : Progress φ Unit :=
  match s.destroy object unwinding with
  | (s, none) => .done s ()
  | (s, some why) => .fault s why

end Interlock
