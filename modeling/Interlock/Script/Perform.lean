import Interlock.Script.World

/-!
# Performing an instruction

What an instruction does when a thread comes to it: it answers at once, begins a call of the
library, or puts a frame on the stack for the instructions nested in it. An instruction that is
wrong does none of these and complains.

  * `World.describeObject`: the text of an object;
  * `World.perform`: one instruction.
-/

namespace Interlock
namespace World

def describeObject (w : World) : Object → String
  | .mutex l => (w.store.locks.get l).describe
  | .condition c => (w.store.conds.get c).describe
  | .once o => (w.store.onces.get o).describe
  | .monitor mo =>
    let monitor := w.store.monitors.get mo
    Monitor.describe (w.store.locks.get monitor.lock) (w.store.conds.get monitor.cond)
  | .semaphore r => (w.store.semaphores.get r).permits.describe
  | .events e => (w.store.events.get e).flags.describe
  | .thread r => (w.store.threads.get r).describe

/-- The text of what a name stands for, or of the condition variable that it means. -/
def describeNamed (w : World) (name : String) : Except Complaint String :=
  match w.bindings.get? name with
  | some (.identity id) => .ok id.describe
  | some (.object (.thread r)) =>
    if w.inUse (.thread r) then .error .inUse else .ok (w.describeObject (.thread r))
  | some (.object o) => .ok (w.describeObject o)
  | none => do
    let (c, _) ← w.condNamed name
    .ok (w.store.conds.get c).describe

/-- Binds a name to a new object. If the name is taken the object is forgotten, but what its
creation left in the store stays. -/
def create (w : World) (t : Tid) (name : String) (s : Store) (o : Object) : World :=
  let w := w.setStore s
  match w.bindObject name o with
  | .ok w => w.give t .null
  | .error c => w.give t c.output

/-- Answers an identity, and keeps it under a name if one is given. -/
def giveIdentity (w : World) (t : Tid) (slot : Option String) (id : ThreadId) : World :=
  match slot with
  | none => w.give t (.int id.toNat)
  | some name =>
    match w.bindIdentity name id with
    | .ok w => w.give t (.int id.toNat)
    | .error c => w.give t c.output

/-- Refuses an object that is in use. -/
def requireUnused (w : World) (o : Object) : Except Complaint Unit :=
  if w.inUse o then .error .inUse else .ok ()

def compareIdentities (x y : ThreadId) : Value :=
  let order :=
    if x.toNat < y.toNat then "Less" else if x.toNat = y.toNat then "Equal" else "Greater"
  .list [.bool (x == y), .text order, .bool (x == y)]

/-- Begins a wait with a guard, which is away from its name meanwhile. -/
def guardCall (w : World) (t : Tid) (g : String) (mo : MonitorRef) (uses : List Object)
    (k : Continuation) (c : Call) : World :=
  (w.takeGuard t g).call t (.monitor mo :: uses) (some (g, .monitor mo)) k c

def partsOf (w : World) (mo : MonitorRef) : LockRef × CondRef :=
  let monitor := w.store.monitors.get mo
  (monitor.lock, monitor.cond)

/-- The reply that a wait has, by whether it is timed. -/
def waitReply (timeout : Option Duration) : Continuation :=
  if timeout.isSome then .timed else .null

/-- Looks at an argument that is there only in some instructions. -/
def lookAt {α : Type} : Option (Arg α) → Except Complaint (Option α)
  | some arg => arg.map some
  | none => .ok none

def perform (w : World) (t : Tid) : Instr → Except Complaint World
  | .wrong c => .error c
  -- counters and control
  | .set x n => do
    let x ← x
    let n ← n
    .ok ((w.setCounter x n).give t .null)
  | .add x n => do
    let x ← x
    let n ← n
    .ok ((w.setCounter x (w.counter x + n)).give t .null)
  | .get x => do
    let x ← x
    .ok (w.give t (.int (w.counter x)))
  | .bump x => do
    let x ← x
    .ok (w.push t (.bump x (w.counter x)) (.give .null))
  | .assert condition => do
    match w.test (← condition) with
    | (w, true) => .ok (w.give t .null)
    | (w, false) => .ok (w.raise t (.client "assertion failed"))
  | .tally x v i => do
    let x ← x
    .ok (w.push t (.tally x v) (.perform i))
  | .times n body => do
    let n ← n
    .ok (w.push t (.times n body) .next)
  | .loop condition body => do
    let condition ← condition
    .ok (w.push t (.loop condition body) .next)
  | .choose condition yes no => do
    match w.test (← condition) with
    | (w, true) => .ok (w.run t yes)
    | (w, false) => .ok (w.run t no)
  | .seq body => .ok (w.run t body)
  | .attempt body => .ok ((w.push t .attempt .next).run t body)
  | .panic text => do
    let text ← text
    .ok (w.raise t (.client text))
  | .exit => .ok ((w.setAgent t { w.agent t with leaving := some .returned }).give t .null)
  | .exitPanic text => do
    let text ← text
    let leaving := some (Ending.panicked (.client text))
    .ok ((w.setAgent t { w.agent t with leaving := leaving }).give t .null)
  | .spawn actor => do
    let actor ← actor
    let (s, child) := w.store.addOsThread t none
    .ok (((w.setStore s).enlist child actor .waiting).give t .null)
  -- objects of any kind
  | .drop name => do
    let (w, b) ← w.takeObject (← name)
    match b with
    | .object o => .ok (w.call t [] none .null (.destroy o false))
    | .identity _ => .ok (w.give t .null)
  | .panicDropping name text => do
    let (taken, b) ← w.takeObject (← name)
    let text ← text
    match b with
    | .object o => .ok (taken.call t [] none (.panicking (.client text)) (.destroy o true))
    | .identity _ => .ok (taken.raise t (.client text))
  | .forceDrop name => do
    let name ← name
    match ← w.condNamed name with
    | (_, .condition c) =>
      let w := { w with bindings := w.bindings.erase name }
      .ok (w.call t [] none .null (.destroy (.condition c) false))
    | _ => .error .wrongObject
  | .describe name => do
    let text ← w.describeNamed (← name)
    .ok (w.give t (.text text))
  | .init name => do
    match ← w.lookup (← name) with
    | .object (.mutex l) =>
      w.requireUnused (.mutex l)
      .ok (w.call t [] none .ok (.initMutex l))
    | .object (.condition c) =>
      w.requireUnused (.condition c)
      .ok (w.call t [] none .ok (.initCond c w.detected))
    | _ => .error .wrongObject
  | .isInit name => do
    match ← w.lookup (← name) with
    | .object (.mutex l) => .ok (w.give t (.bool (w.store.locks.get l).isInitialized))
    | .object (.condition c) => .ok (w.give t (.bool (w.store.conds.get c).isInitialized))
    | _ => .error .wrongObject
  -- mutexes and guards
  | .newMutex name ready => do
    let name ← name
    let (s, l) := w.store.addMutex (if ready then .ready else .raw)
    .ok (w.create t name s (.mutex l))
  | .isLocked m => do
    let l ← w.mutexNamed (← m)
    .ok (w.give t (.bool (w.store.locks.get l).isLocked))
  | .lock m => do
    let l ← w.mutexNamed (← m)
    .ok (w.call t [.mutex l] none .null (.locking l))
  | .unlock m => do
    let l ← w.mutexNamed (← m)
    .ok (w.call t [.mutex l] none .null (.unlocking l))
  | .guard m g => do
    let l ← w.mutexNamed (← m)
    let g ← w.freeGuardName t (← g)
    .ok (w.call t [.mutex l] none (.keep g (.mutex l)) (.locking l))
  | .withGuard m body => do
    let l ← w.mutexNamed (← m)
    .ok (w.call t [.mutex l] none (.around body) (.guarding l))
  | .guardDrop g => do
    let g ← g
    let guard ← w.guardNamed t g
    .ok ((w.takeGuard t g).call t [guard.object] none .null (.unlocking (w.guardLock guard)))
  | .guardForget g => do
    let g ← g
    let _ ← w.guardNamed t g
    .ok ((w.takeGuard t g).give t .null)
  | .guardUnlocked g body => do
    let g ← g
    let guard ← w.guardNamed t g
    .ok ((w.takeGuard t g).call t [guard.object] (some (g, guard)) (.around body)
      (.unguarding (w.guardLock guard)))
  | .guardDescribe g => do
    let guard ← w.guardNamed t (← g)
    .ok (w.give t (.text guard.describe))
  | .guardIsOf g name => do
    let guard ← w.guardNamed t (← g)
    match ← w.lookup (← name) with
    | .object o => .ok (w.give t (.bool (guard.object == o)))
    | .identity _ => .ok (w.give t (.bool false))
  -- condition variables
  | .newCond name => do
    let name ← name
    let (s, c) := w.store.addCond .raw
    .ok (w.create t name s (.condition c))
  | .initWith name backend => do
    match ← w.lookup (← name) with
    | .object (.condition c) =>
      w.requireUnused (.condition c)
      let backend ← backend
      .ok (w.call t [] none .ok (.initCond c backend))
    | _ => .error .wrongObject
  | .detect => .ok (w.give t (.text w.detected.describe))
  | .backend name => do
    let name ← name
    let found ← match w.bindings.get? name with
      | some (.object (.monitor mo)) => .ok (w.store.monitorBackend mo)
      | _ => (w.condNamed name).map fun (c, _) => (w.store.conds.get c).backend?
    match found with
    | some backend => .ok (w.give t (.text backend.describe))
    | none => .ok (w.give t .null)
  | .wakeup c event => do
    let (c, owner) ← w.condNamed (← c)
    .ok (w.call t [owner] none .null (.waking c event))
  | .wait c m timeout => do
    let (c, owner) ← w.condNamed (← c)
    let l ← w.mutexNamed (← m)
    let timeout ← lookAt timeout
    .ok (w.call t [owner, .mutex l] none (waitReply timeout) (.waiting c l timeout))
  | .waitWhile c m timeout condition => do
    let (c, owner) ← w.condNamed (← c)
    let l ← w.mutexNamed (← m)
    let timeout ← lookAt timeout
    let condition ← condition
    .ok (w.call t [owner, .mutex l] none (.condition timeout.isSome condition)
      (.waitingWhile c l timeout))
  -- run-once gates
  | .newOnce name => do
    let name ← name
    let (s, o) := w.store.addOnce
    .ok (w.create t name s (.once o))
  | .onceCall o body condition => do
    let o ← w.onceNamed (← o)
    let condition ← condition
    .ok (w.call t [.once o] none (.callback body condition) (.passing o))
  | .onceTry o body condition err => do
    let o ← w.onceNamed (← o)
    let condition ← condition
    .ok (w.call t [.once o] none (.attempting body condition err) (.passing o))
  | .onceDone o => do
    let o ← w.onceNamed (← o)
    .ok (w.give t (.bool (w.store.onces.get o).completed))
  -- monitors
  | .newMonitor name backend => do
    let name ← name
    let backend ← backend
    let (s, mo) := w.store.addMonitor (backend.getD w.detected)
    .ok (w.create t name s (.monitor mo))
  | .shareMonitor name other => do
    let name ← name
    let other ← w.monitorNamed (← other)
    let (s, mo) := w.store.shareMonitor other
    .ok (w.create t name s (.monitor mo))
  | .isFor a b => do
    let a ← w.monitorNamed (← a)
    let b ← w.monitorNamed (← b)
    .ok (w.give t (.bool ((w.store.monitors.get a).isFor (w.store.monitors.get b))))
  | .enterMonitor mo g => do
    let mo ← w.monitorNamed (← mo)
    let g ← w.freeGuardName t (← g)
    .ok (w.call t [.monitor mo] none (.keep g (.monitor mo)) (.locking (w.partsOf mo).1))
  | .guardWait g timeout => do
    let g ← g
    let mo ← w.monitorGuardNamed t g
    let timeout ← lookAt timeout
    let (l, c) := w.partsOf mo
    .ok (w.guardCall t g mo [] (waitReply timeout) (.waiting c l timeout))
  | .guardWaitOn g c timeout => do
    let g ← g
    let mo ← w.monitorGuardNamed t g
    let (c, owner) ← w.condNamed (← c)
    let timeout ← lookAt timeout
    .ok (w.guardCall t g mo [owner] (waitReply timeout) (.waiting c (w.partsOf mo).1 timeout))
  | .guardWaitWhile g condition => do
    let g ← g
    let mo ← w.monitorGuardNamed t g
    let condition ← condition
    let (l, c) := w.partsOf mo
    .ok (w.guardCall t g mo [] (.condition false condition) (.waitingWhile c l none))
  | .guardWakeup g event => do
    let g ← g
    let mo ← w.monitorGuardNamed t g
    .ok (w.guardCall t g mo [] .null (.waking (w.partsOf mo).2 event))
  -- semaphores and wake events
  | .newSemaphore name available max => do
    let name ← name
    let available ← available
    let max ← max
    match w.store.addSemaphore? ⟨available, max⟩ with
    | .ok (s, r) => .ok (w.create t name s (.semaphore r))
    | .error why => .ok (w.raise t why)
  | .acquire r => do
    let r ← w.semaphoreNamed (← r)
    .ok (w.call t [.semaphore r] none .null (.acquiring r))
  | .tryAcquire r => do
    let r ← w.semaphoreNamed (← r)
    .ok (w.call t [.semaphore r] none .flag (.tryAcquire r))
  | .release r => do
    let r ← w.semaphoreNamed (← r)
    .ok (w.call t [.semaphore r] none .null (.releasing r))
  | .available r => do
    let r ← w.semaphoreNamed (← r)
    .ok (w.give t (.int (w.store.semaphores.get r).permits.available))
  | .newEvents name => do
    let name ← name
    let (s, e) := w.store.addEvents
    .ok (w.create t name s (.events e))
  | .setEvent e event => do
    let e ← w.eventsNamed (← e)
    let event ← event
    .ok (w.call t [.events e] none .null (.setting e event))
  | .resetEvent e event => do
    let e ← w.eventsNamed (← e)
    let event ← event
    .ok (w.call t [.events e] none .null (.resetEvent e event))
  | .isSet e event => do
    let e ← w.eventsNamed (← e)
    let event ← event
    .ok (w.give t (.bool ((w.store.events.get e).flags.isSet event)))
  | .listen e timeout => do
    let e ← w.eventsNamed (← e)
    let timeout ← timeout
    .ok (w.call t [.events e] none .event (.listening e timeout))
  -- threads and identities
  | .newThread name osName stack => do
    let name ← name
    let osName ← osName
    match stack with
    | .ok stack =>
      let (s, r) := w.store.addThread osName stack
      .ok (w.create t name s (.thread r))
    -- the name has been looked at, and reported, before the stack size
    | .error c => .ok ((w.setStore (w.store.reportName? osName)).give t c.output)
  | .start r actor body tag => do
    let r ← w.threadNamed (← r)
    let actor ← actor
    let tag ← tag
    .ok (w.call t [.thread r] none (.started actor body (tag.getD actor)) (.starting r))
  | .join r => do
    let r ← w.threadNamed (← r)
    .ok (w.call t [.thread r] none .null (.joining r))
  | .detach r => do
    let r ← w.threadNamed (← r)
    .ok (w.call t [.thread r] none .null (.detach r))
  | .running r => do
    let r ← w.threadNamed (← r)
    .ok (w.give t (.bool (w.store.threads.get r).running))
  | .state r => do
    let r ← w.threadNamed (← r)
    .ok (w.give t (.text (w.store.threads.get r).state.describe))
  | .threadId r slot => do
    let r ← w.threadNamed (← r)
    let slot ← slot
    .ok (w.giveIdentity t slot (w.store.threads.get r).id)
  | .current slot => do
    let slot ← slot
    .ok (w.call t [] none (.identity slot) .currentId)
  | .nobody slot => do
    let slot ← slot
    .ok (w.giveIdentity t slot .nobody)
  | .showId x => do
    let id ← w.identityNamed (← x)
    .ok (w.give t (.ofFields [("is_none", .bool id.isNobody), ("display", .text id.display),
      ("debug", .text id.describe)]))
  | .compareIds x y => do
    let x ← w.identityNamed (← x)
    let y ← w.identityNamed (← y)
    .ok (w.give t (compareIdentities x y))
  | .sameIds x y => do
    let x ← w.identityNamed (← x)
    let y ← w.identityNamed (← y)
    .ok (w.give t (.bool (x == y)))
  | .setName text => do
    let text ← text
    .ok (w.call t [] none .renamed (.setName text))
  | .osName => .ok (w.give t (.text (Hex.bytes (w.store.osThreads.get t).osName)))
  | .createdName =>
    match (w.store.osThreads.get t).name with
    | some name => .ok (w.give t (.text name))
    | none => .ok (w.give t .null)

end World
end Interlock
