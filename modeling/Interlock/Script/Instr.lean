import Interlock.Script.Value
import Interlock.Time
import Interlock.WakeEvents
import Interlock.Condition

/-!
# Instructions

The programs that the threads of a script run.

  * `Complaint`: what is wrong with an instruction. The instruction then does nothing, and its
    complaint is its output;
  * `Arg`: an argument, or the complaint that is due when the instruction looks at it. Arguments
    are looked at from left to right, so a complaint about one may come after a look at the names
    given by those before it;
  * `Test`: a condition on a counter;
  * `Instr`: the instructions.
-/

namespace Interlock

/-- What is wrong with an instruction. -/
inductive Complaint where
  | noSuchObject
  | wrongObject
  | inUse
  | nameTaken
  | noSuchGuard
  | wrongGuard
  | expectedString
  | expectedUnsigned
  | expectedDuration
  | expectedEvent
  | expectedBackend
  | unknownInstruction
  deriving DecidableEq

def Complaint.message : Complaint → String
  | .noSuchObject => "no such object"
  | .wrongObject => "wrong kind of object"
  | .inUse => "in use"
  | .nameTaken => "name taken"
  | .noSuchGuard => "no such guard"
  | .wrongGuard => "wrong kind of guard"
  | .expectedString => "expected a string"
  | .expectedUnsigned => "expected an unsigned integer"
  | .expectedDuration => "expected a duration"
  | .expectedEvent => "expected an event"
  | .expectedBackend => "expected a backend"
  | .unknownInstruction => "unknown instruction"

def Complaint.output (c : Complaint) : Value := .tagged "bad" (.text c.message)

/-- An argument, or the complaint about it. -/
abbrev Arg (α : Type) := Except Complaint α

inductive Comparison where
  | lt
  | le
  | gt
  | ge
  | eq
  | ne
  deriving DecidableEq

def Comparison.holds (c : Comparison) (a b : Int) : Bool :=
  match c with
  | .lt => a < b
  | .le => a ≤ b
  | .gt => a > b
  | .ge => a ≥ b
  | .eq => a = b
  | .ne => a ≠ b

inductive Operand where
  | literal (n : Int)
  | counter (x : String)

/-- A condition. Its evaluation may be counted. -/
inductive Test where
  | always (b : Bool)
  | compare (x : String) (c : Comparison) (rhs : Operand) (evals : Option String)

inductive Instr where
  /-- An instruction that cannot be read. -/
  | wrong (c : Complaint)
  -- counters and control
  | set (x : Arg String) (n : Arg Int)
  | add (x : Arg String) (n : Arg Int)
  | get (x : Arg String)
  | bump (x : Arg String)
  | assert (test : Arg Test)
  | tally (x : Arg String) (v : Value) (i : Instr)
  | times (n : Arg Nat) (body : List Instr)
  | loop (test : Arg Test) (body : List Instr)
  | choose (test : Arg Test) (yes no : List Instr)
  | seq (body : List Instr)
  | attempt (body : List Instr)
  | panic (text : Arg String)
  | exit
  | exitPanic (text : Arg String)
  | spawn (actor : Arg String)
  -- objects of any kind
  | drop (name : Arg String)
  | panicDropping (name text : Arg String)
  | forceDrop (c : Arg String)
  | describe (name : Arg String)
  | init (name : Arg String)
  | isInit (name : Arg String)
  -- mutexes and guards
  | newMutex (name : Arg String) (ready : Bool)
  | isLocked (m : Arg String)
  | lock (m : Arg String)
  | unlock (m : Arg String)
  | guard (m g : Arg String)
  | withGuard (m : Arg String) (body : List Instr)
  | guardDrop (g : Arg String)
  | guardForget (g : Arg String)
  | guardUnlocked (g : Arg String) (body : List Instr)
  | guardDescribe (g : Arg String)
  | guardIsOf (g name : Arg String)
  -- condition variables
  | newCond (name : Arg String)
  | initWith (name : Arg String) (backend : Arg Backend)
  | detect
  | backend (name : Arg String)
  | wakeup (c : Arg String) (event : WakeEvent)
  | wait (c m : Arg String) (timeout : Option (Arg Duration))
  | waitWhile (c m : Arg String) (timeout : Option (Arg Duration)) (test : Arg Test)
  -- run-once gates
  | newOnce (name : Arg String)
  | onceCall (o : Arg String) (body : List Instr) (test : Arg Test)
  | onceTry (o : Arg String) (body : List Instr) (test : Arg Test) (err : Value)
  | onceDone (o : Arg String)
  -- monitors
  | newMonitor (name : Arg String) (backend : Arg (Option Backend))
  | shareMonitor (name other : Arg String)
  | isFor (a b : Arg String)
  | enterMonitor (mo g : Arg String)
  | guardWait (g : Arg String) (timeout : Option (Arg Duration))
  | guardWaitOn (g c : Arg String) (timeout : Option (Arg Duration))
  | guardWaitWhile (g : Arg String) (test : Arg Test)
  | guardWakeup (g : Arg String) (event : WakeEvent)
  -- semaphores and wake events
  | newSemaphore (name : Arg String) (available max : Arg Nat)
  | acquire (r : Arg String)
  | tryAcquire (r : Arg String)
  | release (r : Arg String)
  | available (r : Arg String)
  | newEvents (name : Arg String)
  | setEvent (e : Arg String) (event : Arg WakeEvent)
  | resetEvent (e : Arg String) (event : Arg WakeEvent)
  | isSet (e : Arg String) (event : Arg WakeEvent)
  | listen (e : Arg String) (timeout : Arg (Option Duration))
  -- threads and identities
  | newThread (name : Arg String) (osName : Arg (Option String)) (stack : Arg (Option Nat))
  | start (t actor : Arg String) (body : Option (List Instr)) (tag : Arg (Option String))
  | join (t : Arg String)
  | detach (t : Arg String)
  | running (t : Arg String)
  | state (t : Arg String)
  | threadId (t : Arg String) (slot : Arg (Option String))
  | current (slot : Arg (Option String))
  | nobody (slot : Arg (Option String))
  | showId (x : Arg String)
  | compareIds (x y : Arg String)
  | sameIds (x y : Arg String)
  | setName (text : Arg String)
  | osName
  | createdName

end Interlock
