import Interlock.Script.Instr

/-!
# Reading instructions

An instruction is written as a list: its name and its arguments. Reading never fails: what has no
name, or one that is not known, reads as an instruction that complains, and so does an argument of
the wrong form.

  * `Arg.text`, `Arg.unsigned`, `Arg.duration`, … read one argument;
  * `Arg.test` reads a condition;
  * `Instr.build` puts an instruction together from its name and its arguments, and `Instr.read`
    reads a value with everything nested in it.
-/

namespace Interlock

/-! ## Arguments -/

namespace Arg

def text : Value → Arg String
  | .text s => .ok s
  | _ => .error .expectedString

/-- An integer of 64 bits, signed. -/
def integer : Value → Arg Int
  | .int n =>
    if -0x8000_0000_0000_0000 ≤ n ∧ n < 0x8000_0000_0000_0000 then
      .ok n
    else
      .error .expectedUnsigned
  | _ => .error .expectedUnsigned

/-- An unsigned integer below `limit`. -/
def unsigned (limit : Nat) : Value → Arg Nat
  | .int n => if 0 ≤ n ∧ n < limit then .ok n.toNat else .error .expectedUnsigned
  | _ => .error .expectedUnsigned

/-- The units of time and their nanoseconds. -/
def units : List (String × Nat) :=
  [("s", 1_000_000_000), ("ms", 1_000_000), ("us", 1_000), ("ns", 1)]

/-- A span of time: a number of units, or the longest span there is. -/
def duration (v : Value) : Arg Duration :=
  match v with
  | .text "max" => .ok .longest
  | _ =>
    match units.findSome? fun (unit, nanos) => (v.field? unit).map (·, nanos) with
    | some (count, nanos) =>
      (unsigned 0x1_0000_0000_0000_0000 count).map fun n => .ofNanos (n * nanos)
    | none => .error .expectedDuration

def event : Value → Arg WakeEvent
  | .text "One" => .ok .one
  | .text "All" => .ok .all
  | _ => .error .expectedEvent

def backend : Value → Arg Backend
  | .text "Native" => .ok .native
  | .text "Fallback" => .ok .fallback
  | _ => .error .expectedBackend

/-- An argument that may be missing. -/
def optional {α : Type} (read : Value → Arg α) : Value → Arg (Option α)
  | .null => .ok none
  | v => (read v).map some

end Arg

/-! ## Conditions -/

/-- A comparison by its sign. -/
def Arg.comparison : Value → Arg Comparison
  | .text "<" => .ok .lt
  | .text "<=" => .ok .le
  | .text ">" => .ok .gt
  | .text ">=" => .ok .ge
  | .text "==" => .ok .eq
  | .text "!=" => .ok .ne
  | .text _ => .error .unknownInstruction
  | _ => .error .expectedString

/-- The right-hand side of a comparison: an integer, or else the name of a counter. -/
def Arg.operand (v : Value) : Arg Operand :=
  match integer v with
  | .ok n => .ok (.literal n)
  | .error _ => (text v).map .counter

/-- A condition. What is no truth value is read as a comparison. -/
def Arg.test : Value → Arg Test
  | .bool b => .ok (.always b)
  | v => do
    let items := match v with
      | .list items => items
      | _ => []
    let item (i : Nat) : Value := items.getD i .null
    let x ← text (item 0)
    let c ← comparison (item 1)
    let rhs ← operand (item 2)
    let evals ← optional text (item 3)
    .ok (.compare x c rhs evals)

/-! ## Instructions -/

/-- An argument in the three ways an instruction may want it. -/
structure RawArg where
  value : Value
  body : Unit → List Instr
  instr : Unit → Instr

def RawArg.missing : RawArg := ⟨.null, fun _ => [], fun _ => .wrong .expectedString⟩

def RawArg.isNull (a : RawArg) : Bool :=
  match a.value with
  | .null => true
  | _ => false

namespace Instr

/-- An instruction from its name and its arguments. -/
def build (name : String) (args : List RawArg) : Instr :=
  let arg (i : Nat) : RawArg := args.getD i .missing
  let value (i : Nat) : Value := (arg i).value
  let text (i : Nat) : Arg String := Arg.text (value i)
  let slot (i : Nat) : Arg (Option String) := Arg.optional Arg.text (value i)
  let body (i : Nat) : List Instr := (arg i).body ()
  let test (i : Nat) : Arg Test := Arg.test (value i)
  let timeout (i : Nat) : Option (Arg Duration) := some (Arg.duration (value i))
  let option (i : Nat) (field : String) : Value := ((value i).field? field).getD .null
  match name with
  | "set" => set (text 0) (Arg.integer (value 1))
  | "add" => add (text 0) (Arg.integer (value 1))
  | "get" => get (text 0)
  | "bump" => bump (text 0)
  | "assert" => assert (test 0)
  | "tally" => tally (text 0) (value 1) ((arg 2).instr ())
  | "repeat" => times (Arg.unsigned 0x1_0000_0000_0000_0000 (value 0)) (body 1)
  | "while" => loop (test 0) (body 1)
  | "if" => choose (test 0) (body 1) (body 2)
  | "seq" => seq (body 0)
  | "try" => attempt (body 0)
  | "panic" => panic (text 0)
  | "exit" => exit
  | "exit_panic" => exitPanic (text 0)
  | "spawn" => spawn (text 0)
  | "drop" => drop (text 0)
  | "panic_dropping" => panicDropping (text 0) (text 1)
  | "force_drop" => forceDrop (text 0)
  | "debug" => describe (text 0)
  | "init" => init (text 0)
  | "is_init" => isInit (text 0)
  | "mutex" => newMutex (text 0) (match value 1 with | .text "ready" => true | _ => false)
  | "is_locked" => isLocked (text 0)
  | "lock" => lock (text 0)
  | "unlock" => unlock (text 0)
  | "guard" => guard (text 0) (text 1)
  | "guard_new" => guard (text 0) (text 1)
  | "with_guard" => withGuard (text 0) (body 1)
  | "guard_drop" => guardDrop (text 0)
  | "guard_forget" => guardForget (text 0)
  | "guard_unlocked" => guardUnlocked (text 0) (body 1)
  | "guard_debug" => guardDescribe (text 0)
  | "guard_is_of" => guardIsOf (text 0) (text 1)
  | "cond" => newCond (text 0)
  | "init_with" => initWith (text 0) (Arg.backend (value 1))
  | "detect" => detect
  | "backend" => backend (text 0)
  | "signal" => wakeup (text 0) .one
  | "broadcast" => wakeup (text 0) .all
  | "wait" => wait (text 0) (text 1) none
  | "wait_timeout" => wait (text 0) (text 1) (timeout 2)
  | "wait_while" => waitWhile (text 0) (text 1) none (test 2)
  | "wait_timeout_while" => waitWhile (text 0) (text 1) (timeout 2) (test 3)
  | "once" => newOnce (text 0)
  | "once_call" => onceCall (text 0) (body 1) (test 2)
  | "once_try" => onceTry (text 0) (body 1) (test 2) (value 3)
  | "once_done" => onceDone (text 0)
  | "monitor" => newMonitor (text 0) (Arg.optional Arg.backend (value 1))
  | "monitor_sharing" => shareMonitor (text 0) (text 1)
  | "is_for" => isFor (text 0) (text 1)
  | "mon_lock" => enterMonitor (text 0) (text 1)
  | "mg_wait" => guardWait (text 0) none
  | "mg_wait_timeout" => guardWait (text 0) (timeout 1)
  | "mg_wait_while" => guardWaitWhile (text 0) (test 1)
  | "mg_wait_on" => guardWaitOn (text 0) (text 1) none
  | "mg_wait_on_timeout" => guardWaitOn (text 0) (text 1) (timeout 2)
  | "mg_notify" => guardWakeup (text 0) .one
  | "mg_notify_all" => guardWakeup (text 0) .all
  | "sem" =>
    newSemaphore (text 0) (Arg.unsigned 0x1_0000_0000 (value 1))
      (Arg.unsigned 0x1_0000_0000 (value 2))
  | "acquire" => acquire (text 0)
  | "try_acquire" => tryAcquire (text 0)
  | "release" => release (text 0)
  | "available" => available (text 0)
  | "events" => newEvents (text 0)
  | "set_event" => setEvent (text 0) (Arg.event (value 1))
  | "reset_event" => resetEvent (text 0) (Arg.event (value 1))
  | "is_set" => isSet (text 0) (Arg.event (value 1))
  | "wait_any" => listen (text 0) (Arg.optional Arg.duration (value 1))
  | "thread" =>
    newThread (text 0) (Arg.optional Arg.text (option 1 "name"))
      (Arg.optional (Arg.unsigned 0x1_0000_0000_0000_0000) (option 1 "stack"))
  | "start" =>
    start (text 0) (text 1) (if (arg 2).isNull then none else some (body 2)) (slot 3)
  | "join" => join (text 0)
  | "detach" => detach (text 0)
  | "running" => running (text 0)
  | "state" => state (text 0)
  | "thread_id" => threadId (text 0) (slot 1)
  | "current" => current (slot 0)
  | "thread_current" => current (slot 0)
  | "id_none" => nobody (slot 0)
  | "id_default" => nobody (slot 0)
  | "id_show" => showId (text 0)
  | "id_cmp" => compareIds (text 0) (text 1)
  | "id_eq" => sameIds (text 0) (text 1)
  | "set_name" => setName (text 0)
  | "comm" => osName
  | "std_name" => createdName
  | _ => wrong .unknownInstruction

mutual

def read : Value → Instr
  | .list items => readItems items
  | _ => wrong .expectedString

/-- Reads an instruction from the items of its list. -/
def readItems : List Value → Instr
  | .text name :: args => build name (readArgs args)
  | _ => wrong .expectedString

def readArgs : List Value → List RawArg
  | [] => []
  | v :: rest => ⟨v, fun _ => readBody v, fun _ => read v⟩ :: readArgs rest

def readBody : Value → List Instr
  | .list items => readAll items
  | _ => []

def readAll : List Value → List Instr
  | [] => []
  | v :: rest => read v :: readAll rest

end

end Instr

end Interlock
