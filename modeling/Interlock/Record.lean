import Interlock.Violation

/-!
# Log records

What the library reports while it runs, besides its results: violations as errors, lost parts of
names as warnings, and traces of wakeups and of the life of threads.
-/

namespace Interlock

inductive Record where
  | violation (v : Violation)
  /-- A thread name was cut at its first NUL. -/
  | nameCut (name : String)
  /-- A wakeup found no sleepers. -/
  | wakeupDropped (event : WakeEvent)
  /-- The last sleeper timed out while a single wakeup was pending. -/
  | timedOutLast
  /-- The last sleeper of a broadcast left. -/
  | broadcastLeft
  | started (id : ThreadId) (name : Option String)
  | joined (id : ThreadId)
  | detached (id : ThreadId)
  deriving DecidableEq

namespace Record

/-- The line of a record: its level and its text. -/
def line : Record → String
  | violation v => "error: " ++ v.message
  | nameCut name =>
    "warn: thread name " ++ Quoted.quote name ++ " contains a NUL byte and was truncated"
  | wakeupDropped event => "trace: " ++ event.describe ++ " wakeup dropped, no sleepers"
  | timedOutLast => "trace: last sleeper timed out with a single wakeup pending"
  | broadcastLeft => "trace: last sleeper left a broadcast"
  | started id name =>
    "trace: thread " ++ id.display ++ " (" ++ Quoted.quote? name ++ ") started"
  | joined id => "trace: thread " ++ id.display ++ " joined"
  | detached id => "trace: thread " ++ id.display ++ " detached"

end Record

end Interlock
