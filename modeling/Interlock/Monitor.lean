import Interlock.Mutex
import Interlock.Condition

/-!
# Monitors

A monitor is a mutex, possibly shared with other monitors, and a condition variable of its own.
-/

namespace Interlock

/-- The mutex that a monitor shares and the condition variable that it owns. -/
structure Monitor where
  lock : LockRef
  cond : CondRef
  deriving DecidableEq

namespace Monitor

instance : Inhabited Monitor := ⟨⟨0, 0⟩⟩

/-- Whether two monitors use the same mutex. -/
def isFor (a b : Monitor) : Bool := a.lock == b.lock

/-- The text of a monitor with this mutex and this condition variable. -/
def describe (lock : Mutex) (cond : Condition) : String :=
  "Monitor \x7b lock: " ++ lock.describe ++ ", cond: " ++ cond.describe ++ " \x7d"

end Monitor

end Interlock
