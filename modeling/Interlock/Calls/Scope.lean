import Interlock.Calls.Lock

/-!
# Guard scopes and unlocked sections

Two calls that run a body of the client's in the middle.

  * A guard scope locks a mutex, runs its body, and unlocks the mutex however the body ends.
  * An unlocked section unlocks a mutex, runs its body, and locks the mutex again however the
    body ends.

When the body panics, its thread unwinds while the second half runs, and a violation found there
ends the process. When that half is done the panic goes on.
-/

namespace Interlock

/-- What a body answers: yes, or no with its error. A body that has no error to give, such as a
condition, answers no with an empty one; a body that gives no answer at all answers yes. -/
inductive Answer where
  | yes
  | no (error : String)
  deriving DecidableEq

/-- The answer of a body that returns a truth value. -/
def Answer.ofBool (b : Bool) : Answer := if b then yes else no ""

def Answer.isYes : Answer → Bool
  | yes => true
  | no _ => false

/-- How a body of the client's ended. -/
inductive BodyEnd where
  | returned (answer : Answer)
  | panicked (why : Panic)
  deriving DecidableEq

/-- The panic that goes on after a body, if any. -/
def BodyEnd.panic? : BodyEnd → Option Panic
  | returned _ => none
  | panicked why => some why

/-- The end of a call that passes on the panic of its body. -/
def Progress.passOn {φ ρ : Type} (s : Store) (reply : ρ) : Option Panic → Progress φ ρ
  | none => .done s reply
  | some why => .fault s why

/-- A step that runs after a body: while a panic is pending, a second one ends the process. -/
def Progress.whileUnwinding {φ ρ : Type} (pending : Option Panic) (p : Progress φ ρ) :
    Progress φ ρ :=
  if pending.isSome then p.orAbort else p

/-- Where a thread is in a guard scope. -/
inductive ScopePhase where
  | locking (p : LockPhase)
  | body
  | unlocking (p : UnlockPhase) (pending : Option Panic)
  deriving DecidableEq

namespace ScopePhase

/-- One step of a guard scope of thread `t` on mutex `l`. -/
def step (t : Tid) (l : LockRef) (s : Store) : ScopePhase → Progress ScopePhase Unit
  | locking p => (p.step t l s).within locking fun s _ => .next s body
  | body => .blocked
  | unlocking p pending =>
    ((p.step t l s).whileUnwinding pending).within (unlocking · pending)
      fun s _ => .passOn s () pending

/-- The scope goes on after its body. -/
def resume (e : BodyEnd) : ScopePhase → ScopePhase
  | body => unlocking .entry e.panic?
  | p => p

end ScopePhase

/-- Where a thread is in an unlocked section. -/
inductive UnlockedPhase where
  | unlocking (p : UnlockPhase)
  | body
  | relocking (p : LockPhase) (pending : Option Panic)
  deriving DecidableEq

namespace UnlockedPhase

/-- One step of an unlocked section of thread `t` on mutex `l`. -/
def step (t : Tid) (l : LockRef) (s : Store) : UnlockedPhase → Progress UnlockedPhase Unit
  | unlocking p => (p.step t l s).within unlocking fun s _ => .next s body
  | body => .blocked
  | relocking p pending =>
    ((p.step t l s).whileUnwinding pending).within (relocking · pending)
      fun s _ => .passOn s () pending

/-- The section goes on after its body. -/
def resume (e : BodyEnd) : UnlockedPhase → UnlockedPhase
  | body => relocking .entry e.panic?
  | p => p

end UnlockedPhase

end Interlock
