import Interlock.Condition.Native
import Interlock.Condition.Fallback

/-!
# Condition variables

A condition variable is uninitialized at first. Initialization picks one of two backends: the
platform's queue of waiters, or the portable protocol.

  * `Backend`, `Condition`;
  * `Condition.describe`: the text shown to programmers.
-/

namespace Interlock

/-- What a condition variable is made of. -/
inductive Backend where
  | native
  | fallback
  deriving DecidableEq

def Backend.describe : Backend → String
  | .native => "Native"
  | .fallback => "Fallback"

inductive Condition where
  | raw
  | native (queue : NativeQueue)
  | fallback (state : Fallback)
  deriving DecidableEq

namespace Condition

instance : Inhabited Condition := ⟨raw⟩

def new : Backend → Condition
  | .native => native .empty
  | .fallback => fallback .new

/-- The backend chosen at initialization. -/
def backend? : Condition → Option Backend
  | raw => none
  | native _ => some .native
  | fallback _ => some .fallback

def isInitialized (c : Condition) : Bool := c.backend?.isSome

def describe (c : Condition) : String :=
  "ConditionVariable \x7b backend: "
    ++ (match c.backend? with
        | some backend => "Some(" ++ backend.describe ++ ")"
        | none => "None")
    ++ ", .. \x7d"

end Condition

end Interlock
