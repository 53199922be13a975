import Interlock.Script.Perform

/-!
# One step of a thread in a script

A thread of a script either works on its own program or is in a call of the library; then its
step is a step of the machine, and what comes of it is handed to the program.

  * `World.unwind`, `World.accept`, `World.proceed`: a panic, an output, or nothing new for the
    innermost frame;
  * `World.notice`: what becomes of a step of the machine;
  * `World.step`: one step, and whether the thread moved.
-/

namespace Interlock

/-- How a step of a thread went. -/
inductive Pace where
  | moved
  /-- The thread moved and lets the others go first now. -/
  | yielded
  | stuck
  deriving DecidableEq

namespace World

/-- A command has ended with these outputs. Its thread waits for the next one or ends. -/
def finish (w : World) (t : Tid) (outputs : List Value) (why : Option Panic) : World :=
  let a := w.agent t
  let w := { w with finished := (a.tag, outputs) :: w.finished }
  let ending := match a.single, why, a.leaving with
    | true, some p, _ => some (.panicked p)
    | _, _, some e => some e
    | true, none, none => some .returned
    | false, _, none => none
  match ending with
  | some e => (w.setStore (w.store.endThread t e)).setAgent t .ended
  | none => w.setAgent t .waiting

def panicOutput (why : Panic) : Value := .tagged "panic" (.text why.message)

/-- A call has ended: its guard is back under its name, even if another one took the name
meanwhile. -/
def giveBack (w : World) (t : Tid) : Option (String × Guard) → World
  | some (g, guard) => w.keepGuard t g guard
  | none => w

/-- The body of the call in progress has ended. -/
def endBody (w : World) (t : Tid) (e : BodyEnd) : World :=
  { w.focusOn t .calling with machine := w.machine.endBody t e }

def unwind (w : World) (t : Tid) (why : Panic) : World :=
  match (w.agent t).frames with
  | [] => w.finish t [panicOutput why] (some why)
  | [.block _ outputs] => w.finish t (panicOutput why :: outputs).reverse (some why)
  | .attempt :: outer => w.setFrames t outer (.give (panicOutput why))
  | .call _ :: _ => w.endBody t (.panicked why)
  | _ :: outer => w.setFrames t outer (.raise why)

/-- An output of the code that a call ran: what the call is told, and what the frame keeps. -/
def endCode (w : World) (t : Tid) (p : Pending) (outer : List Frame) (v : Value) : World :=
  match p.continuation with
  | .callback _ condition =>
    let (w, holds) := w.test condition
    w.endBody t (.returned (.ofBool holds))
  | .attempting _ condition err =>
    let (w, holds) := w.test condition
    w.endBody t (.returned (if holds then .yes else .no err.compact))
  | _ =>
    let frames := .call { p with continuation := .output v } :: outer
    (w.setFrames t frames .calling).endBody t (.returned .yes)

/-- The innermost frame of thread `t` gets an output. -/
def accept (w : World) (t : Tid) (v : Value) : World × Pace :=
  match (w.agent t).frames with
  | [] => (w.finish t [v] none, .moved)
  | .block rest outputs :: outer =>
    (w.setFrames t (.block rest (v :: outputs) :: outer) .next, .moved)
  | .times _ _ :: _ => (w.focusOn t .next, .moved)
  | .loop _ _ :: _ => (w.focusOn t .next, .yielded)
  | .attempt :: outer => (w.setFrames t outer (.give (.tagged "ok" v)), .moved)
  | .tally x wanted :: outer =>
    let w := w.setFrames t outer (.give .null)
    (if v.same wanted then w.setCounter x (w.counter x + 1) else w, .moved)
  | .bump _ _ :: _ => (w.focusOn t .next, .yielded)
  | .call p :: outer => (w.endCode t p outer v, .moved)

/-- Thread `t` goes on with its innermost frame. -/
def proceed (w : World) (t : Tid) : World × Pace :=
  match (w.agent t).frames with
  | [] => (w, .stuck)
  | [.block [] outputs] => (w.finish t outputs.reverse none, .moved)
  | .block [] outputs :: outer => (w.setFrames t outer (.give (.list outputs.reverse)), .moved)
  | .block (i :: rest) outputs :: outer =>
    (w.setFrames t (.block rest outputs :: outer) (.perform i), .moved)
  | .times 0 _ :: outer => (w.setFrames t outer (.give .null), .moved)
  | .times (left + 1) body :: outer =>
    ((w.setFrames t (.times left body :: outer) .next).run t body, .moved)
  | .loop condition body :: outer =>
    match w.test condition with
    | (w, true) => (w.run t body, .moved)
    | (w, false) => (w.setFrames t outer (.give .null), .moved)
  | .attempt :: outer => (w.setFrames t outer (.give .null), .moved)
  | .tally _ _ :: outer => (w.setFrames t outer (.give .null), .moved)
  | .bump x n :: outer =>
    ((w.setCounter x (n + 1)).setFrames t outer (.give .null), .moved)
  | .call _ :: _ => (w.focusOn t .calling, .moved)

/-- The record that reports a refused thread. -/
def spawnRefused : Value :=
  .ofFields [("err", .text "Spawn"), ("display", .text spawnRefusal)]

/-- A thread that was started becomes an actor, with commands to come or a body of its own. -/
def enroll (w : World) (child : Tid) (actor : String) (body : Option (List Instr))
    (tag : String) : World :=
  w.enlist child actor <| match body with
    | some is => .running tag is
    | none => .taking

/-- The output that a continuation makes of a reply. -/
def replyOutput (w : World) (t : Tid) (k : Continuation) (r : Reply) : Value :=
  match k, r with
  | .ok, _ => .text "ok"
  | .flag, .flag b => .bool b
  | .callback _ _, .answer a => .bool a.isYes
  | .timed, .flag woken | .condition true _, .flag woken =>
    .text (if woken then "woken" else "timed_out")
  | .event, .event (some e) => .text e.describe
  | .output v, _ => v
  | .attempting _ _ _, .answer .yes => .text "ok"
  | .attempting _ _ _, .answer (.no error) => .tagged "err" (.written error)
  | .renamed, _ => .list [.bool true, .text (Hex.bytes (w.store.osThreads.get t).osName)]
  | _, _ => .null

/-- A call of thread `t` has ended with a reply. -/
def replied (w : World) (t : Tid) (p : Pending) (outer : List Frame) (r : Reply) : World :=
  let w := w.setFrames t outer .next
  match p.continuation, r with
  | .entry, _ => if outer.isEmpty then w.focusOn t .idle else w
  | .identity slot, .identity id => w.giveIdentity t slot id
  | .keep g guard, _ => (w.keepGuard t g guard).give t .null
  | .started actor body tag, .started (some child) =>
    (w.enroll child actor body tag).give t (.text "ok")
  | .started _ _ _, _ => w.give t spawnRefused
  | .panicking why, _ => w.raise t why
  | k, r =>
    let v := w.replyOutput t k r
    (w.giveBack t p.back).give t v

/-- The call of thread `t` runs its client's code now. -/
def enterBody (w : World) (t : Tid) (p : Pending) : World :=
  match p.continuation with
  | .around body | .callback body _ | .attempting body _ _ => w.run t body
  | .condition _ condition =>
    let (w, holds) := w.test condition
    w.endBody t (.returned (.ofBool holds))
  | _ => w.endBody t (.returned .yes)

/-- What becomes of a step of the machine in the program of thread `t`. -/
def notice (w : World) (t : Tid) (p : Pending) (outer : List Frame) : Notice → World × Pace
  | .working => (w, .moved)
  | .body => (w.enterBody t p, .moved)
  | .replied r => (w.replied t p outer r, .moved)
  | .panicked why =>
    let w := w.setFrames t outer .next
    ((w.giveBack t p.back).raise t why, .moved)
  | .blocked => (w, .stuck)
  | .aborted => ({ w with aborted := true }, .moved)

def step (w : World) (t : Tid) (choice : Choice) : World × Pace :=
  match (w.agent t).focus with
  | .ended => (w, .stuck)
  | .idle => (w, .stuck)
  | .next => w.proceed t
  | .perform i =>
    match w.perform t i with
    | .ok w => (w, .moved)
    | .error c => (w.give t c.output, .moved)
  | .calling =>
    match (w.agent t).frames with
    | .call p :: outer =>
      let (m, n) := w.machine.advance t choice
      { w with machine := m }.notice t p outer n
    | _ => (w, .stuck)
  | .give v => w.accept t v
  | .raise why => (w.unwind t why, .moved)

end World
end Interlock
