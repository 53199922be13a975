import Interlock.Condition
import Interlock.Thread.Lifecycle
import Interlock.Thread.Name

/-!
# Contract violations and panics

Breaking the contract of an object is fatal: the violation is logged and its thread panics.

  * `Violation` lists the ways to break a contract, `Violation.message` their texts;
  * `Panic` is what a thread unwinds with: a violation, a refusal by the platform, or a text of
    the client's own.
-/

namespace Interlock

/-- The operations that need an initialized mutex. -/
inductive MutexOp where
  | lock
  | unlock
  | waitOn
  deriving DecidableEq

def MutexOp.verb : MutexOp → String
  | .lock => "lock"
  | .unlock => "unlock"
  | .waitOn => "wait on"

/-- The operations that need an initialized condition variable. -/
inductive ConditionOp where
  | signal
  | broadcast
  | waitOn
  deriving DecidableEq

def ConditionOp.verb : ConditionOp → String
  | .signal => "signal"
  | .broadcast => "broadcast"
  | .waitOn => "wait on"

/-- The operation that wakes with this event. -/
def ConditionOp.ofEvent : WakeEvent → ConditionOp
  | .one => .signal
  | .all => .broadcast

/-- The operations that need a running thread object. -/
inductive ThreadOp where
  | join
  | detach
  deriving DecidableEq

def ThreadOp.verb : ThreadOp → String
  | .join => "join"
  | .detach => "detach"

/-- The ways to break a contract. -/
inductive Violation where
  | mutexInitializedTwice
  | mutexUninitialized (op : MutexOp)
  /-- The caller holds the mutex that it locks. -/
  | relocked (me : ThreadId)
  /-- The caller does not hold the mutex that it gives up. -/
  | notHolder (op : MutexOp) (me : ThreadId)
  | mutexNeverInitialized
  | mutexDroppedHeld (owner : ThreadId)
  | conditionInitializedTwice
  | conditionUninitialized (op : ConditionOp)
  | waitWithoutMutex
  | conditionDropped (state : Fallback)
  | wakeupOverlap
  | registeredDuringWakeup
  | tooManySleepers
  | wrongSingleWakeup (mode : Nat)
  | invalidWakeup (wokenBy : Option WakeEvent) (mode sleepers : Nat)
  | unexpectedEvent (expected : WakeEvent) (got : Option WakeEvent)
  | overRelease (max : Nat)
  | startedRunning (id : ThreadId)
  | notRunning (op : ThreadOp) (state : ThreadState)
  | threadDroppedRunning (id : ThreadId)
  | identityTaken (old new : ThreadId)
  deriving DecidableEq

namespace Violation

def describeEvent? : Option WakeEvent → String
  | some event => "Some(" ++ event.describe ++ ")"
  | none => "None"

def hex (n : Nat) : String := "0x" ++ String.ofList (Hex.number n)

/-- The text of a violation, logged and carried by the panic. -/
def message : Violation → String
  | mutexInitializedTwice => "mutex initialized twice"
  | mutexUninitialized op => "cannot " ++ op.verb ++ " an uninitialized mutex"
  | relocked me => "mutex locked again by thread " ++ me.display ++ ", which already holds it"
  | notHolder op me =>
    "cannot " ++ op.verb ++ " a mutex that thread " ++ me.display ++ " does not hold"
  | mutexNeverInitialized => "mutex dropped without ever being initialized"
  | mutexDroppedHeld owner => "mutex dropped while held by thread " ++ toString owner.toNat
  | conditionInitializedTwice => "condition variable initialized twice"
  | conditionUninitialized op =>
    "cannot " ++ op.verb ++ " an uninitialized condition variable"
  | waitWithoutMutex => "cannot wait on a condition variable without holding its mutex"
  | conditionDropped state => "condition variable dropped mid-wakeup: " ++ state.describe
  | wakeupOverlap => "condition variable wakeup started while another is in progress"
  | registeredDuringWakeup => "sleeper registered while a wakeup is in progress"
  | tooManySleepers => "too many sleepers on one condition variable"
  | wrongSingleWakeup mode => "woken by a single wakeup while the wakeup mode is " ++ hex mode
  | invalidWakeup wokenBy mode sleepers =>
    "invalid condition variable wakeup: woken by " ++ describeEvent? wokenBy
      ++ ", mode " ++ hex mode ++ ", " ++ toString sleepers ++ " sleepers left"
  | unexpectedEvent expected got =>
    "expected the " ++ expected.describe ++ " wake event, got " ++ describeEvent? got
  | overRelease max => "semaphore released beyond its maximum of " ++ toString max
  | startedRunning id => "thread " ++ id.display ++ " started while it is still running"
  | notRunning op state => "cannot " ++ op.verb ++ " a thread in state " ++ state.describe
  | threadDroppedRunning id =>
    "thread " ++ id.display ++ " dropped while running, join or detach it first"
  | identityTaken old new =>
    "thread " ++ toString old.toNat ++ " already has an id, cannot become " ++ new.display

end Violation

/-- What a thread unwinds with. -/
inductive Panic where
  /-- A broken contract; it has been logged. -/
  | violation (v : Violation)
  /-- The platform refuses a second mutex on a condition variable somebody waits on. -/
  | secondMutex
  /-- The platform refuses a thread whose name has a NUL. -/
  | nulInName (name : String)
  /-- The platform refuses a thread that waits for its own end. -/
  | joinedItself
  | semaphoreBounds
  | client (text : String)
  deriving DecidableEq

def Panic.message : Panic → String
  | .violation v => v.message
  | .secondMutex => "attempted to use a condition variable with more than one mutex"
  | .nulInName name =>
    "thread name may not contain interior null bytes: NulError("
      ++ toString (ThreadName.bytes (ThreadName.untilNul name)).length ++ ", ["
      ++ ", ".intercalate ((ThreadName.bytes name).map fun b => toString b.toNat) ++ "])"
  | .joinedItself => "failed to join thread: Resource deadlock avoided (os error 35)"
  | .semaphoreBounds => "invalid semaphore bounds"
  | .client text => text

end Interlock
