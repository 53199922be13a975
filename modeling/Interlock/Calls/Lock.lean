import Interlock.Progress

/-!
# Locking and unlocking

The atomic steps of taking and giving up a mutex. The platform lock and the owner word are
written one after the other:

  * `lock` reads the owner word, takes the platform lock, and then writes its own identity;
  * `unlock` reads the owner word, clears it, and then releases the platform lock.

A thread that reads its own identity is the holder, so a second `lock` panics before it could
block, and an `unlock` by anybody else panics before it changes anything.
-/

namespace Interlock

/-- Where a thread is in locking a mutex. -/
inductive LockPhase where
  | entry
  | check (me : ThreadId)
  | take (me : ThreadId)
  | claim (me : ThreadId)
  deriving DecidableEq

/-- Where a thread is in unlocking a mutex. -/
inductive UnlockPhase where
  | entry
  | check (me : ThreadId)
  | disclaim
  | release
  deriving DecidableEq

namespace LockPhase

/-- One step of thread `t` locking mutex `l`. -/
def step (t : Tid) (l : LockRef) (s : Store) : LockPhase → Progress LockPhase Unit
  | entry =>
    if (s.lock l).isNone then
      s.violate (.mutexUninitialized .lock)
    else
      let (s, me) := s.currentId t
      .next s (.check me)
  | check me =>
    s.withLock l fun lock =>
      if lock.owner = me then s.violate (.relocked me) else .next s (.take me)
  | take me =>
    s.withLock l fun lock =>
      if lock.isLocked then .blocked else .next (s.setLock l (lock.take t)) (.claim me)
  | claim me =>
    s.withLock l fun lock => .done (s.setLock l (lock.claim me)) ()

end LockPhase

namespace UnlockPhase

/-- One step of thread `t` unlocking mutex `l`. -/
def step (t : Tid) (l : LockRef) (s : Store) : UnlockPhase → Progress UnlockPhase Unit
  | entry =>
    if (s.lock l).isNone then
      s.violate (.mutexUninitialized .unlock)
    else
      let (s, me) := s.currentId t
      .next s (.check me)
  | check me =>
    s.withLock l fun lock =>
      if lock.owner = me then .next s .disclaim else s.violate (.notHolder .unlock me)
  | disclaim =>
    s.withLock l fun lock => .next (s.setLock l (lock.claim .nobody)) .release
  | release =>
    s.withLock l fun lock => .done (s.setLock l lock.release) ()

end UnlockPhase

end Interlock
