import Interlock.Handle

/-!
# Semaphores

  * `Permits`: a count that never exceeds its maximum, taken and put back one at a time;
  * `Semaphore`: permits and the threads asleep until one is put back.

The entry gate of the portable condition variable is a `Permits` too, so both share the same
arithmetic.
-/

namespace Interlock

/-- A number of permits and its upper bound. -/
structure Permits where
  available : Nat
  max : Nat
  deriving DecidableEq

namespace Permits

/-- The permits less one, if there is one. -/
def take? (p : Permits) : Option Permits :=
  if p.available = 0 then none else some { p with available := p.available - 1 }

/-- The permits and one more, unless they are at their maximum. -/
def put? (p : Permits) : Option Permits :=
  if p.available = p.max then none else some { p with available := p.available + 1 }

/-- Whether a semaphore may start with these permits. -/
def valid (p : Permits) : Bool := 0 < p.max && p.available ≤ p.max

def describe (p : Permits) : String :=
  "Semaphore \x7b available: " ++ toString p.available ++ ", max: " ++ toString p.max ++ " \x7d"

end Permits

/-- Permits and the queue of threads asleep for one. -/
structure Semaphore where
  permits : Permits
  sleepers : List Tid
  deriving DecidableEq

namespace Semaphore

def new (permits : Permits) : Semaphore := ⟨permits, []⟩

instance : Inhabited Semaphore := ⟨new ⟨0, 0⟩⟩

end Semaphore

end Interlock
