import Interlock.Machine
import Interlock.Assoc
import Interlock.Script.Read

/-!
# The world of a script

The machine, the names that a script gives to objects, counters, guards and actors, and for every
thread the program it is in.

  * `Frame` is an instruction with others nested in it, waiting for one of them to end;
    `Focus` is what a thread does next;
  * `Agent` is a thread as the script sees it: its frames, innermost first, and its focus;
  * `World` puts all together; `World.inUse` says which objects must not go away.
-/

namespace Interlock

/-- A guard kept under a name. -/
inductive Guard where
  | mutex (l : LockRef)
  | monitor (mo : MonitorRef)
  deriving DecidableEq

/-- The object that a guard was made from. -/
def Guard.object : Guard → Object
  | .mutex l => .mutex l
  | .monitor mo => .monitor mo

def Guard.describe : Guard → String
  | .mutex _ => "MutexGuard \x7b .. \x7d"
  | .monitor _ => "MonitorGuard \x7b .. \x7d"

/-- What a name stands for. -/
inductive Binding where
  | object (o : Object)
  | identity (id : ThreadId)
  deriving DecidableEq

/-- What is made of the reply to a call, and what a call runs in its body. -/
inductive Continuation where
  /-- The thread is set up, and its program begins. -/
  | entry
  | null
  | ok
  | flag
  | timed
  | event
  /-- The reply is an identity, kept under a name if one is given. -/
  | identity (slot : Option String)
  /-- The guard is kept under a name. -/
  | keep (g : String) (guard : Guard)
  /-- The call runs a body, and its output is the body's. -/
  | around (body : List Instr)
  | output (v : Value)
  /-- The call runs a body and then asks for the condition. -/
  | callback (body : List Instr) (test : Test)
  /-- The same, and a failure has an error. -/
  | attempting (body : List Instr) (test : Test) (err : Value)
  /-- The call asks for the condition. -/
  | condition (timed : Bool) (test : Test)
  | started (actor : String) (body : Option (List Instr)) (tag : String)
  | renamed
  /-- A destructor has run, and the panic goes on. -/
  | panicking (why : Panic)

/-- A call of the library in progress in a script. -/
structure Pending where
  /-- The objects that the call needs. -/
  uses : List Object
  /-- The guard that comes back under its name when the call ends. -/
  back : Option (String × Guard)
  continuation : Continuation

/-- An instruction or command that waits for something nested in it. -/
inductive Frame where
  /-- The instructions that are left, and the outputs so far, latest first. -/
  | block (rest : List Instr) (outputs : List Value)
  | times (left : Nat) (body : List Instr)
  | loop (test : Test) (body : List Instr)
  | attempt
  | tally (x : String) (v : Value)
  /-- The counter was read; the others go first, and then it is written. -/
  | bump (x : String) (n : Int)
  | call (p : Pending)

/-- What a thread does next. -/
inductive Focus where
  | ended
  | idle
  /-- Go on with the innermost frame. -/
  | next
  | perform (i : Instr)
  /-- A call of the library is in progress. -/
  | calling
  /-- An output for the innermost frame. -/
  | give (v : Value)
  /-- Unwind the innermost frame. -/
  | raise (why : Panic)

/-- A thread as a script sees it. -/
structure Agent where
  /-- The tag of the command in progress. -/
  tag : String
  focus : Focus
  frames : List Frame
  /-- How the thread ends after its command, if it does. -/
  leaving : Option Ending
  /-- Whether the thread runs a single command, its entry function. -/
  single : Bool

namespace Agent

/-- A thread that takes no commands. -/
def ended : Agent := ⟨"", .ended, [], none, false⟩

instance : Inhabited Agent := ⟨ended⟩

def waiting : Agent := ⟨"", .idle, [], none, false⟩

/-- The call that sets up a thread started by the library. -/
def setup : Frame := .call ⟨[], none, .entry⟩

/-- A thread that is set up and then waits for commands. -/
def taking : Agent := ⟨"", .calling, [setup], none, false⟩

/-- A thread that is set up, runs a list of instructions, and ends. -/
def running (tag : String) (body : List Instr) : Agent :=
  ⟨tag, .calling, [setup, .block body []], none, true⟩

def busy (a : Agent) : Bool :=
  match a.focus with
  | .ended => false
  | .idle => false
  | _ => true

def isEnded (a : Agent) : Bool :=
  match a.focus with
  | .ended => true
  | _ => false

end Agent

structure World where
  machine : Machine
  /-- The backend that detection finds. -/
  detected : Backend
  bindings : Assoc String Binding
  counters : Assoc String Int
  /-- The guards, by thread and name. -/
  guards : Assoc (Tid × String) Guard
  /-- The guards that have lost their names. Nobody can end them any more. -/
  strays : List Guard
  /-- The actors' names, latest first. Several threads may bear one name. -/
  actors : List (String × Tid)
  agents : Table Agent
  /-- The commands that have finished, with their tags and outputs. -/
  finished : List (String × List Value)
  aborted : Bool

namespace World

/-- Only the actor `main` exists. -/
def initial (detected : Backend) : World :=
  { machine := .initial, detected := detected, bindings := .empty, counters := .empty,
    guards := .empty, strays := [], actors := [("main", 0)],
    agents := Table.empty.set 0 .waiting, finished := [], aborted := false }

def store (w : World) : Store := w.machine.store

def setStore (w : World) (s : Store) : World := { w with machine := { w.machine with store := s } }

def agent (w : World) (t : Tid) : Agent := w.agents.get t

def setAgent (w : World) (t : Tid) (a : Agent) : World := { w with agents := w.agents.set t a }

/-- The actor of a name: of the threads that bear it and have not ended, the latest. -/
def actorNamed? (w : World) (name : String) : Option Tid :=
  (w.actors.find? fun (actor, t) => actor == name && !(w.agent t).isEnded).map (·.2)

/-- A new thread becomes an actor. -/
def enlist (w : World) (t : Tid) (actor : String) (a : Agent) : World :=
  { w.setAgent t a with actors := (actor, t) :: w.actors }

def focusOn (w : World) (t : Tid) (f : Focus) : World :=
  w.setAgent t { w.agent t with focus := f }

def give (w : World) (t : Tid) (v : Value) : World := w.focusOn t (.give v)

def raise (w : World) (t : Tid) (why : Panic) : World := w.focusOn t (.raise why)

def setFrames (w : World) (t : Tid) (frames : List Frame) (f : Focus) : World :=
  w.setAgent t { w.agent t with frames := frames, focus := f }

def push (w : World) (t : Tid) (frame : Frame) (f : Focus) : World :=
  w.setFrames t (frame :: (w.agent t).frames) f

/-- Thread `t` runs a list of instructions in place. -/
def run (w : World) (t : Tid) (body : List Instr) : World := w.push t (.block body []) .next

def call (w : World) (t : Tid) (uses : List Object) (back : Option (String × Guard))
    (k : Continuation) (c : Call) : World :=
  { w.push t (.call ⟨uses, back, k⟩) .calling with machine := w.machine.begin t c }

/-! ## Counters and conditions -/

/-- The value of a counter, zero at first. -/
def counter (w : World) (x : String) : Int := (w.counters.get? x).getD 0

/-- Writes a counter; it holds 64 bits, signed, and wraps round. -/
def setCounter (w : World) (x : String) (n : Int) : World :=
  { w with counters := w.counters.set x (n.bmod 0x1_0000_0000_0000_0000) }

def operand (w : World) : Operand → Int
  | .literal n => n
  | .counter x => w.counter x

/-- Evaluates a condition. If the condition wants its evaluations counted, this one is counted
before the counters are read. -/
def test (w : World) : Test → World × Bool
  | .always b => (w, b)
  | .compare x c rhs evals =>
    let w := match evals with
      | some y => w.setCounter y (w.counter y + 1)
      | none => w
    (w, c.holds (w.counter x) (w.operand rhs))

/-! ## Names of objects and guards -/

def Frame.uses (o : Object) : Frame → Bool
  | .call p => p.uses.contains o
  | _ => false

/-- Whether a call on the object is in progress, or a guard made from it exists. -/
def inUse (w : World) (o : Object) : Bool :=
  w.guards.values.any (·.object == o) || w.strays.any (·.object == o)
    || (List.range w.store.nextThread).any fun t => (w.agent t).frames.any (Frame.uses o)

/-- Binds a name that is free to an object. -/
def bindObject (w : World) (name : String) (o : Object) : Except Complaint World :=
  match w.bindings.get? name with
  | some _ => .error .nameTaken
  | none => .ok { w with bindings := w.bindings.set name (.object o) }

/-- Binds a name that is free, or stands for an identity, to an identity. -/
def bindIdentity (w : World) (name : String) (id : ThreadId) : Except Complaint World :=
  match w.bindings.get? name with
  | some (.object _) => .error .nameTaken
  | _ => .ok { w with bindings := w.bindings.set name (.identity id) }

/-- What a name stands for. -/
def lookup (w : World) (name : String) : Except Complaint Binding :=
  match w.bindings.get? name with
  | some b => .ok b
  | none => .error .noSuchObject

def mutexNamed (w : World) (name : String) : Except Complaint LockRef := do
  match ← w.lookup name with
  | .object (.mutex l) => .ok l
  | _ => .error .wrongObject

def onceNamed (w : World) (name : String) : Except Complaint OnceRef := do
  match ← w.lookup name with
  | .object (.once o) => .ok o
  | _ => .error .wrongObject

def monitorNamed (w : World) (name : String) : Except Complaint MonitorRef := do
  match ← w.lookup name with
  | .object (.monitor mo) => .ok mo
  | _ => .error .wrongObject

def semaphoreNamed (w : World) (name : String) : Except Complaint SemaphoreRef := do
  match ← w.lookup name with
  | .object (.semaphore r) => .ok r
  | _ => .error .wrongObject

def eventsNamed (w : World) (name : String) : Except Complaint EventsRef := do
  match ← w.lookup name with
  | .object (.events e) => .ok e
  | _ => .error .wrongObject

/-- The thread object of a name, unless it is being joined. -/
def threadNamed (w : World) (name : String) : Except Complaint ThreadRef := do
  match ← w.lookup name with
  | .object (.thread r) => if w.inUse (.thread r) then .error .inUse else .ok r
  | _ => .error .wrongObject

def identityNamed (w : World) (name : String) : Except Complaint ThreadId := do
  match ← w.lookup name with
  | .identity id => .ok id
  | _ => .error .wrongObject

/-- The monitor whose own condition variable a name of the form `<monitor>.cond` means. -/
def monitorPart? (name : String) : Option String :=
  let cs := name.toList
  let suffix := ".cond".toList
  if suffix.isSuffixOf cs then some (String.ofList (cs.take (cs.length - suffix.length))) else none

/-- The condition variable of a name, and the object that it is part of. -/
def condNamed (w : World) (name : String) : Except Complaint (CondRef × Object) :=
  match monitorPart? name with
  | some owner => do
    let mo ← w.monitorNamed owner
    .ok ((w.store.monitors.get mo).cond, .monitor mo)
  | none => do
    match ← w.lookup name with
    | .object (.condition c) => .ok (c, .condition c)
    | _ => .error .wrongObject

def guardNamed (w : World) (t : Tid) (g : String) : Except Complaint Guard :=
  match w.guards.get? (t, g) with
  | some guard => .ok guard
  | none => .error .noSuchGuard

/-- A name under which thread `t` keeps no guard. -/
def freeGuardName (w : World) (t : Tid) (g : String) : Except Complaint String :=
  if (w.guards.get? (t, g)).isSome then .error .nameTaken else .ok g

/-- The guard of a monitor of a name in thread `t`. -/
def monitorGuardNamed (w : World) (t : Tid) (g : String) : Except Complaint MonitorRef := do
  match ← w.guardNamed t g with
  | .monitor mo => .ok mo
  | .mutex _ => .error .wrongGuard

def guardLock (w : World) : Guard → LockRef
  | .mutex l => l
  | .monitor mo => (w.store.monitors.get mo).lock

def takeGuard (w : World) (t : Tid) (g : String) : World :=
  { w with guards := w.guards.erase (t, g) }

/-- Keeps a guard under a name. One that has the name already loses it, and stays. -/
def keepGuard (w : World) (t : Tid) (g : String) (guard : Guard) : World :=
  { w with
    guards := w.guards.set (t, g) guard
    strays := (w.guards.get? (t, g)).toList ++ w.strays }

/-- An object that is not in use is taken away from its name. -/
def takeObject (w : World) (name : String) : Except Complaint (World × Binding) := do
  let b ← w.lookup name
  match b with
  | .object o => if w.inUse o then .error .inUse
  | .identity _ => pure ()
  .ok ({ w with bindings := w.bindings.erase name }, b)

end World

end Interlock
