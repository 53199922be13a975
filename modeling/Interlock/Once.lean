import Interlock.Handle

/-!
# Run-once gates

A gate lets one successful callback through. Callbacks run under the gate's own mutex; the flag
is read without it first.
-/

namespace Interlock

/-- The gate's mutex and whether a callback has succeeded. -/
structure Once where
  lock : LockRef
  completed : Bool
  deriving DecidableEq

namespace Once

instance : Inhabited Once := ⟨⟨0, false⟩⟩

/-- The text of a gate. -/
def describe (o : Once) : String :=
  "Once \x7b completed: " ++ toString o.completed ++ ", .. \x7d"

end Once

end Interlock
