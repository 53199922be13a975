import Interlock.Progress

/-!
# Taking and putting back permits

The atomic steps of a semaphore. A thread that finds no permit falls asleep in the same step;
putting a permit back and waking a sleeper are two steps, and a woken thread looks again, because
somebody else may have taken the permit in between.
-/

namespace Interlock

/-- Where a thread is in taking a permit. -/
inductive AcquirePhase where
  | attempt
  | asleep
  deriving DecidableEq

namespace AcquirePhase

/-- Takes a permit of semaphore `r`, or falls asleep. -/
def attemptStep (t : Tid) (r : SemaphoreRef) (s : Store) : Progress AcquirePhase Unit :=
  let sem := s.semaphores.get r
  match sem.permits.take? with
  | some permits => .done (s.setSemaphore r { sem with permits := permits }) ()
  | none => .next (s.setSemaphore r { sem with sleepers := sem.sleepers ++ [t] }) asleep

/-- One step of thread `t` taking a permit of semaphore `r`. -/
def step (t : Tid) (r : SemaphoreRef) (s : Store) : AcquirePhase → Progress AcquirePhase Unit
  | attempt => attemptStep t r s
  | asleep => if t ∈ (s.semaphores.get r).sleepers then .blocked else attemptStep t r s

end AcquirePhase

/-- Where a thread is in putting a permit back. -/
inductive ReleasePhase where
  | put
  | notify
  deriving DecidableEq

namespace ReleasePhase

/-- One step of putting a permit back into semaphore `r`. -/
def step (r : SemaphoreRef) (choice : Choice) (s : Store) :
    ReleasePhase → Progress ReleasePhase Unit
  | put =>
    let sem := s.semaphores.get r
    match sem.permits.put? with
    | some permits => .next (s.setSemaphore r { sem with permits := permits }) notify
    | none => s.violate (.overRelease sem.permits.max)
  | notify =>
    let sem := s.semaphores.get r
    .done (s.setSemaphore r
      { sem with sleepers := sem.sleepers.eraseIdx (choice.pick % sem.sleepers.length) }) ()

end ReleasePhase

/-- Takes a permit of semaphore `r` if there is one; the reply says whether there was. -/
def tryAcquireStep {φ : Type} (r : SemaphoreRef) (s : Store) : Progress φ Bool :=
  let sem := s.semaphores.get r
  match sem.permits.take? with
  | some permits => .done (s.setSemaphore r { sem with permits := permits }) true
  | none => .done s false

end Interlock
