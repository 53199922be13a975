import Interlock.Calls.Wakeup
import Interlock.Calls.WaitWhile
import Interlock.Calls.Once
import Interlock.Calls.Permit
import Interlock.Calls.Listen
import Interlock.Calls.Threads
import Interlock.Calls.Objects

/-!
# Calls

Every operation of the library that changes the store, with the phase it has reached.

  * `Call`: the operations; the constructors that carry a phase take several atomic steps, the
    others take one;
  * `Call.step`: one atomic step of a call;
  * `Call.atBody`: whether the call now runs code of the client's, and `Call.resume`: how it goes
    on when that code has ended.
-/

namespace Interlock

inductive Reply where
  | nothing
  /-- Woken, taken: what the call calls success. -/
  | flag (b : Bool)
  /-- A gate was passed, or the callback gave an error. -/
  | answer (a : Answer)
  | event (e : Option WakeEvent)
  | started (t : Option Tid)
  | identity (id : ThreadId)
  deriving DecidableEq

/-- An operation of the library in progress. -/
inductive Call where
  | initMutex (l : LockRef)
  | lock (l : LockRef) (p : LockPhase)
  | unlock (l : LockRef) (p : UnlockPhase)
  | scope (l : LockRef) (p : ScopePhase)
  | unlocked (l : LockRef) (p : UnlockedPhase)
  | initCond (c : CondRef) (backend : Backend)
  | wakeup (c : CondRef) (event : WakeEvent) (p : WakeupPhase)
  | wait (c : CondRef) (l : LockRef) (timeout : Option Duration) (p : WaitPhase)
  | waitWhile (c : CondRef) (l : LockRef) (timeout : Option Duration) (p : WaitWhilePhase)
  | once (o : OnceRef) (p : OncePhase)
  | acquire (r : SemaphoreRef) (p : AcquirePhase)
  | tryAcquire (r : SemaphoreRef)
  | release (r : SemaphoreRef) (p : ReleasePhase)
  | setEvent (e : EventsRef) (event : WakeEvent) (p : SetPhase)
  | resetEvent (e : EventsRef) (event : WakeEvent)
  | listen (e : EventsRef) (timeout : Option Duration) (p : ListenPhase)
  | configure (r : ThreadRef) (setting : ThreadSetting)
  | start (r : ThreadRef) (p : StartPhase)
  | install (id : ThreadId)
  | join (r : ThreadRef) (p : JoinPhase)
  | detach (r : ThreadRef)
  | currentId
  | setName (name : String)
  | destroy (object : Object) (unwinding : Bool)
  deriving DecidableEq

namespace Call

/-- A step of one kind of call as a step of a call. -/
def lift {φ ρ : Type} (call : φ → Call) (reply : ρ → Reply) (p : Progress φ ρ) :
    Progress Call Reply :=
  p.within call fun s r => .done s (reply r)

/-- A call without phases as a step of a call. -/
def single {ρ : Type} (reply : ρ → Reply) (p : Progress Call ρ) : Progress Call Reply :=
  p.within id fun s r => .done s (reply r)

/-- One atomic step of a call of thread `t`. -/
def step (t : Tid) (choice : Choice) (s : Store) : Call → Progress Call Reply
  | initMutex l => single (fun _ => .nothing) (initMutexStep l s)
  | lock l p => lift (lock l) (fun _ => .nothing) (p.step t l s)
  | unlock l p => lift (unlock l) (fun _ => .nothing) (p.step t l s)
  | scope l p => lift (scope l) (fun _ => .nothing) (p.step t l s)
  | unlocked l p => lift (unlocked l) (fun _ => .nothing) (p.step t l s)
  | initCond c backend => single (fun _ => .nothing) (initCondStep c backend s)
  | wakeup c event p => lift (wakeup c event) (fun _ => .nothing) (p.step c event choice s)
  | wait c l timeout p => lift (wait c l timeout) .flag (p.step t c l timeout s)
  | waitWhile c l timeout p => lift (waitWhile c l timeout) .flag (p.step t c l timeout s)
  | once o p => lift (once o) .answer (p.step t o s)
  | acquire r p => lift (acquire r) (fun _ => .nothing) (p.step t r s)
  | tryAcquire r => single .flag (tryAcquireStep r s)
  | release r p => lift (release r) (fun _ => .nothing) (p.step r choice s)
  | setEvent e event p => lift (setEvent e event) (fun _ => .nothing) (p.step e event s)
  | resetEvent e event => single (fun _ => .nothing) (resetStep e event s)
  | listen e timeout p => lift (listen e timeout) .event (p.step t e timeout s)
  | configure r setting => single (fun _ => .nothing) (configureStep r setting s)
  | start r p => lift (start r) .started (p.step t r choice s)
  | install id => single (fun _ => .nothing) (installStep t id s)
  | join r p => lift (join r) (fun _ => .nothing) (p.step t r s)
  | detach r => single (fun _ => .nothing) (detachStep r s)
  | currentId => let (s, id) := s.currentId t; .done s (.identity id)
  | setName name => .done (s.nameThread t name) .nothing
  | destroy object unwinding => single (fun _ => .nothing) (destroyStep object unwinding s)

/-- Whether the call runs code of the client's now, and waits for its end. -/
def atBody : Call → Bool
  | scope _ .body => true
  | unlocked _ .body => true
  | waitWhile _ _ _ (.test _) => true
  | once _ .callback => true
  | _ => false

/-- The call after the client's code has ended. -/
def resume (e : BodyEnd) : Call → Call
  | scope l p => scope l (p.resume e)
  | unlocked l p => unlocked l (p.resume e)
  | waitWhile c l timeout p => waitWhile c l timeout (p.resume e)
  | once o p => once o (p.resume e)
  | call => call

/-! ## The calls from their beginning -/

def locking (l : LockRef) : Call := lock l .entry

def unlocking (l : LockRef) : Call := unlock l .entry

/-- Runs a body with a mutex locked. -/
def guarding (l : LockRef) : Call := scope l (.locking .entry)

/-- Runs a body with a mutex unlocked. -/
def unguarding (l : LockRef) : Call := unlocked l (.unlocking .entry)

def waking (c : CondRef) (event : WakeEvent) : Call := wakeup c event .entry

def waiting (c : CondRef) (l : LockRef) (timeout : Option Duration) : Call :=
  wait c l timeout .entry

def waitingWhile (c : CondRef) (l : LockRef) (timeout : Option Duration) : Call :=
  waitWhile c l timeout .begin

def passing (o : OnceRef) : Call := once o .fast

def acquiring (r : SemaphoreRef) : Call := acquire r .attempt

def releasing (r : SemaphoreRef) : Call := release r .put

def setting (e : EventsRef) (event : WakeEvent) : Call := setEvent e event .raise

def listening (e : EventsRef) (timeout : Option Duration) : Call := listen e timeout .begin

def starting (r : ThreadRef) : Call := start r .entry

def joining (r : ThreadRef) : Call := join r .entry

/-- Whether a call is at its beginning. -/
def isFresh : Call → Bool
  | initMutex _ => true
  | lock _ p => p == .entry
  | unlock _ p => p == .entry
  | scope _ p => p == .locking .entry
  | unlocked _ p => p == .unlocking .entry
  | initCond _ _ => true
  | wakeup _ _ p => p == .entry
  | wait _ _ _ p => p == .entry
  | waitWhile _ _ _ p => p == .begin
  | once _ p => p == .fast
  | acquire _ p => p == .attempt
  | tryAcquire _ => true
  | release _ p => p == .put
  | setEvent _ _ p => p == .raise
  | resetEvent _ _ => true
  | listen _ _ p => p == .begin
  | configure _ _ => true
  | start _ p => p == .entry
  | install _ => false
  | join _ p => p == .entry
  | detach _ => true
  | currentId => true
  | setName _ => true
  | destroy _ _ => true

end Call

end Interlock
