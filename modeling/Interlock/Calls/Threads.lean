import Interlock.Progress

/-!
# Starting, joining and detaching threads

  * The name and the stack size that an object asks for can be set at any time. They count for the
    next start, and leave a thread that runs already as it is.
  * A start draws the identity of the new thread before the thread exists, and the new thread
    installs it before anything else runs in it. If the operating system refuses the thread, the
    object is left as it was.
  * A join waits until the thread has ended, releases the object, and then raises the panic that
    the thread ended with, if any. A thread that joins itself panics instead; its object goes on
    as running, but there is nothing left to join or detach.
  * A detach releases the object at once.
-/

namespace Interlock

/-- The text of the error that a start answers when the operating system refuses the thread. -/
def spawnRefusal : String :=
  "failed to spawn an OS thread: Resource temporarily unavailable (os error 11)"

/-- Where a thread is in starting another one. -/
inductive StartPhase where
  | entry
  | spawn (id : ThreadId)
  | record (id : ThreadId) (child : Tid)
  deriving DecidableEq

namespace StartPhase

/-- One step of thread `t` starting the thread object `r`. The reply is the new thread, or
nothing if the operating system refused it. -/
def step (t : Tid) (r : ThreadRef) (choice : Choice) (s : Store) :
    StartPhase → Progress StartPhase (Option Tid)
  | entry =>
    if (s.threads.get r).running then
      s.violate (.startedRunning (s.threads.get r).id)
    else
      let (s, id) := s.drawId
      .next s (spawn id)
  | spawn id =>
    let th := s.threads.get r
    match th.name.filter ThreadName.hasNul with
    | some name => .fault s (.nulInName name)
    | none =>
      if choice.refuse then .done s none
      else
        let (s, child) := s.addOsThread t th.name
        .next s (record id child)
  | record id child =>
    let th := s.threads.get r
    .done ((s.report (.started id th.name)).setThread r (th.started id child)) (some child)

end StartPhase

/-- A new thread installs the identity chosen by its creator. -/
def installStep {φ : Type} (t : Tid) (id : ThreadId) (s : Store) : Progress φ Unit :=
  if s.ids.own.get t = .nobody then
    .done { s with ids := s.ids.install t id } ()
  else
    s.violate (.identityTaken (s.ids.own.get t) id)

/-- Takes the handle of a running thread object, to join or detach it. -/
def takeRunning {φ ρ : Type} (r : ThreadRef) (op : ThreadOp) (s : Store)
    (step : Store → Tid → Progress φ ρ) : Progress φ ρ :=
  let th := s.threads.get r
  let s := s.setThread r { th with handle := none }
  match th.state, th.handle with
  | .running, some child => step s child
  | state, _ => s.violate (.notRunning op state)

/-- Where a thread is in joining another one. -/
inductive JoinPhase where
  | entry
  | waiting (child : Tid)
  deriving DecidableEq

namespace JoinPhase

/-- The object is released and the end of its thread is passed on. -/
def finish (r : ThreadRef) (ending : Ending) (s : Store) : Progress JoinPhase Unit :=
  let th := s.threads.get r
  let s := (s.setThread r (th.released .joined)).report (.joined th.id)
  match ending with
  | .returned => .done s ()
  | .panicked why => .fault s why

/-- One step of thread `t` joining the thread object `r`. -/
def step (t : Tid) (r : ThreadRef) (s : Store) : JoinPhase → Progress JoinPhase Unit
  | entry => takeRunning r .join s fun s child => .next s (waiting child)
  | waiting child =>
    if child = t then .fault s .joinedItself
    else
      match (s.osThreads.get child).ending with
      | some ending => finish r ending s
      | none => .blocked

end JoinPhase

/-- Sets what the object asks for at its next start. -/
def configureStep {φ : Type} (r : ThreadRef) (setting : ThreadSetting) (s : Store) :
    Progress φ Unit :=
  .done (s.configureThread r setting) ()

def detachStep {φ : Type} (r : ThreadRef) (s : Store) : Progress φ Unit :=
  takeRunning r .detach s fun s _ =>
    let th := s.threads.get r
    .done ((s.report (.detached th.id)).setThread r (th.released .detached)) ()

end Interlock
