import Interlock.Calls.Wait
import Interlock.Calls.Scope

/-!
# Waiting for a condition

A loop around a wait: the client's condition is evaluated with the mutex held, first before any
waiting, and again after every wait. The loop ends when the condition is false. A timed loop ends
too when the condition still holds after more than the timeout has passed since its start; each
of its waits is given what is left of the timeout.

The reply says whether the loop ended because the condition was false.
-/

namespace Interlock

/-- Where a thread is in waiting for a condition. -/
inductive WaitWhilePhase where
  | begin
  /-- The client evaluates its condition. -/
  | test (start : Instant)
  /-- The condition holds: what is left of the timeout? -/
  | measure (start : Instant)
  | waiting (start : Instant) (timeout : Option Duration) (p : WaitPhase)
  /-- The condition does not hold. -/
  | met
  /-- The condition panicked. -/
  | broken (why : Panic)
  deriving DecidableEq

namespace WaitWhilePhase

/-- One step of thread `t` waiting on condition variable `c` with mutex `l`, for at most
`timeout` in all. -/
def step (t : Tid) (c : CondRef) (l : LockRef) (timeout : Option Duration) (s : Store) :
    WaitWhilePhase → Progress WaitWhilePhase Bool
  | begin => .next s (test s.clock)
  | test _ => .blocked
  | measure start =>
    match timeout with
    | none => .next s (waiting start none .entry)
    | some limit =>
      match limit.sub? (s.clock.since start) with
      | some rest => .next s (waiting start (some rest) .entry)
      | none => .done s false
  | waiting start rest p =>
    (p.step t c l rest s).within (waiting start rest) fun s _ => .next s (test start)
  | met => .done s true
  | broken why => .fault s why

/-- The loop goes on after its condition was evaluated. -/
def resume (e : BodyEnd) : WaitWhilePhase → WaitWhilePhase
  | test start =>
    match e with
    | .returned .yes => measure start
    | .returned (.no _) => met
    | .panicked why => broken why
  | p => p

end WaitWhilePhase

end Interlock
