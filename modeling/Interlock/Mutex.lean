import Interlock.Thread.Id

/-!
# Mutexes

A mutex is a platform lock and beside it the identity of the thread that holds it. The two are
written one after the other, so between the two writes they differ; only the holder writes the
owner word, and that is what makes a thread that reads its own identity there the holder.

  * `LockState`: the platform lock (with the thread that took it) and the owner word;
  * `Mutex`: a lock state once it has been initialized;
  * `Mutex.describe`: the text shown to programmers.
-/

namespace Interlock

/-- An initialized lock: who took the platform lock, and the owner word. -/
structure LockState where
  /-- The thread that took the platform lock and has not released it. -/
  holder : Option Tid
  /-- The identity written by the holder, `nobody` while nobody claims the lock. -/
  owner : ThreadId
  deriving DecidableEq

namespace LockState

def free : LockState := ⟨none, .nobody⟩

/-- Whether some thread has the platform lock. -/
def isLocked (lock : LockState) : Bool := lock.holder.isSome

/-- Thread `t` takes the platform lock. -/
def take (lock : LockState) (t : Tid) : LockState := { lock with holder := some t }

def release (lock : LockState) : LockState := { lock with holder := none }

def claim (lock : LockState) (id : ThreadId) : LockState := { lock with owner := id }

end LockState

/-- A mutex, uninitialized at first. -/
structure Mutex where
  state : Option LockState
  deriving DecidableEq

namespace Mutex

def raw : Mutex := ⟨none⟩

/-- A mutex that is initialized from the start. -/
def ready : Mutex := ⟨some .free⟩

instance : Inhabited Mutex := ⟨raw⟩

def isInitialized (m : Mutex) : Bool := m.state.isSome

/-- Whether some thread has the lock; an uninitialized mutex is not locked. -/
def isLocked (m : Mutex) : Bool := m.state.any LockState.isLocked

def describe (m : Mutex) : String :=
  match m.state with
  | some lock => "Mutex \x7b locked: " ++ toString lock.isLocked ++ ", .. \x7d"
  | none => "Mutex \x7b initialized: false, .. \x7d"

end Mutex

end Interlock
