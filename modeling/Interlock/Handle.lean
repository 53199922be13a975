/-!
# Handles

Objects are named by numbers in the order of their creation; a number is never given out twice.
-/

namespace Interlock

/-- A thread of the operating system. -/
abbrev Tid := Nat

abbrev LockRef := Nat

abbrev CondRef := Nat

abbrev OnceRef := Nat

abbrev MonitorRef := Nat

abbrev SemaphoreRef := Nat

abbrev EventsRef := Nat

abbrev ThreadRef := Nat

end Interlock
