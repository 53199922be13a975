import Interlock.Handle

/-!
# The platform condition variable

The platform keeps a queue of waiters, each with the mutex it released. All of them released the
same mutex: while somebody waits, a wait with another mutex is refused.

  * `NativeQueue.accepts`: the condition under which a wait may begin;
  * `enqueue`, `remove`: a waiter comes, a waiter leaves by itself;
  * `notifyOne`, `notifyAll`: waiters are removed by somebody else. Which one `notifyOne`
    removes is left open: the number says which.
-/

namespace Interlock

/-- The waiters of a platform condition variable, each with the mutex it released. -/
structure NativeQueue where
  waiters : List (Tid × LockRef)
  deriving DecidableEq

namespace NativeQueue

def empty : NativeQueue := ⟨[]⟩

/-- Whether a thread may wait with mutex `l`: nobody waits with another one. -/
def accepts (q : NativeQueue) (l : LockRef) : Bool :=
  q.waiters.all (·.2 == l)

def waiting (q : NativeQueue) (t : Tid) : Bool :=
  q.waiters.any (·.1 == t)

def enqueue (q : NativeQueue) (t : Tid) (l : LockRef) : NativeQueue :=
  ⟨q.waiters ++ [(t, l)]⟩

def remove (q : NativeQueue) (t : Tid) : NativeQueue :=
  ⟨q.waiters.filter (·.1 != t)⟩

/-- One waiter is woken, the `pick`-th counted round the queue. -/
def notifyOne (q : NativeQueue) (pick : Nat) : NativeQueue :=
  ⟨q.waiters.eraseIdx (pick % q.waiters.length)⟩

def notifyAll (_ : NativeQueue) : NativeQueue := empty

end NativeQueue

end Interlock
