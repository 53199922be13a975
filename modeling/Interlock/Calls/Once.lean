import Interlock.Calls.Scope

/-!
# Passing a run-once gate

A gate that is completed is passed at once. Otherwise the caller locks the gate's mutex and looks
again, because another caller may have completed the gate meanwhile; only then its callback runs,
under the mutex. A callback that succeeds completes the gate. However the callback ends, the
mutex is unlocked.

The reply is yes if this or an earlier callback succeeded, and otherwise the error that the callback
gave.
-/

namespace Interlock

/-- What is left to do once the gate's mutex is unlocked. -/
inductive OnceEnd where
  | passed
  /-- The call's own callback gave this error. -/
  | failed (error : String)
  | panicked (why : Panic)
  deriving DecidableEq

/-- The panic that goes on after the gate is unlocked, if any. -/
def OnceEnd.panic? : OnceEnd → Option Panic
  | panicked why => some why
  | _ => none

/-- The reply once the gate is unlocked; while a panic is pending there is none. -/
def OnceEnd.answer : OnceEnd → Answer
  | passed => .yes
  | failed error => .no error
  | panicked _ => .no ""

/-- Where a thread is in passing a gate. -/
inductive OncePhase where
  | fast
  | locking (p : LockPhase)
  | recheck
  | callback
  | complete
  | unlocking (p : UnlockPhase) (finish : OnceEnd)
  deriving DecidableEq

namespace OncePhase

/-- One step of thread `t` passing gate `o`. -/
def step (t : Tid) (o : OnceRef) (s : Store) : OncePhase → Progress OncePhase Answer
  | fast =>
    if (s.onces.get o).completed then .done s .yes else .next s (locking .entry)
  | locking p =>
    (p.step t (s.onces.get o).lock s).within locking fun s _ => .next s recheck
  | recheck =>
    if (s.onces.get o).completed then .next s (unlocking .entry .passed) else .next s callback
  | callback => .blocked
  | complete =>
    .next (s.setOnce o { s.onces.get o with completed := true }) (unlocking .entry .passed)
  | unlocking p finish =>
    ((p.step t (s.onces.get o).lock s).whileUnwinding finish.panic?).within (unlocking · finish)
      fun s _ => .passOn s finish.answer finish.panic?

/-- The call goes on after its callback. -/
def resume (e : BodyEnd) : OncePhase → OncePhase
  | callback =>
    match e with
    | .returned .yes => complete
    | .returned (.no error) => unlocking .entry (.failed error)
    | .panicked why => unlocking .entry (.panicked why)
  | p => p

end OncePhase

end Interlock
