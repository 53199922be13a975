import Interlock.Script.Schedule

/-!
# Scripts and their answers

A script is a list of steps. Each sends commands to actors and lets everything run until it is
quiet; its answer tells which commands finished, which are blocked, which could not be sent, and,
if the script asks for it, what was logged.

  * `Command.read`, `World.send`: one command;
  * `World.stepResult`: the answer of one step;
  * `Script.answer`: the answer of a script.
-/

namespace Interlock

/-- A list of instructions for an actor. -/
structure Command where
  actor : String
  tag : String
  body : List Instr

namespace Command

def textField? (v : Value) (name : String) : Option String :=
  match v.field? name with
  | some (.text s) => some s
  | _ => none

/-- Reads a command; it goes to the actor `main` and bears its actor's name if it says nothing
else. -/
def read (v : Value) : Command :=
  let actor := (textField? v "a").getD "main"
  ⟨actor, (textField? v "tag").getD actor, Instr.readBody ((v.field? "do").getD .null)⟩

/-- Reads the commands of a step: a single one, or several that run at the same time. -/
def readStep (v : Value) : List Command :=
  match v.field? "par" with
  | some (.list commands) => commands.map read
  | _ => [read v]

end Command

namespace World

/-- Sends a command to its actor, or says why it cannot be sent. -/
def send (w : World) (c : Command) : World × Option String :=
  match w.actorNamed? c.actor with
  | none => (w, some "no actor")
  | some t =>
    let a := w.agent t
    if a.busy then (w, some "busy")
    else
      (w.setAgent t { a with tag := c.tag, frames := [.block c.body []], focus := .next }, none)

/-- Sends commands one right after the other; those that could not be sent are told apart. -/
def sendAll (w : World) : List Command → World × List (String × String)
  | [] => (w, [])
  | c :: rest =>
    let (w, refusal) := w.send c
    let (w, skipped) := w.sendAll rest
    match refusal with
    | some why => (w, (c.actor, why) :: skipped)
    | none => (w, skipped)

/-- The tags of the commands in progress. -/
def blockedTags (w : World) : List String :=
  (List.range w.store.nextThread).filterMap fun t =>
    let a := w.agent t
    if a.busy then some a.tag else none

/-- Texts in the order of their characters. -/
def sortTexts (texts : List String) : List String :=
  texts.mergeSort fun a b => !decide (b < a)

/-- Values in the order of their compact texts. -/
def sortValues (values : List Value) : List Value :=
  ((values.map fun v => (v.compact, v)).mergeSort fun a b => !decide (b.1 < a.1)).map (·.2)

def stepResult (w : World) (logged : Bool) (skipped : List (String × String)) : Value :=
  let finished := w.finished.map fun (tag, outputs) => .list [.text tag, .list outputs]
  let fields := [("done", .list (sortValues finished)),
    ("blocked", .list ((sortTexts w.blockedTags).map .text))]
  let skips := skipped.map fun (actor, why) => .list [.text actor, .text why]
  let fields := if skipped.isEmpty then fields else fields ++ [("skipped", .list skips)]
  let lines := sortTexts (w.store.log.map Record.line)
  .ofFields (if logged then fields ++ [("log", .list (lines.map .text))] else fields)

/-- The world at the beginning of the next step. -/
def clearResults (w : World) : World :=
  { w.setStore { w.store with log := [] } with finished := [] }

end World

/-- Runs the steps of a script and collects their answers; nothing if the process aborts. -/
def Schedule.runSteps (r : Schedule) (logged : Bool) : List Value → Option (List Value)
  | [] => some []
  | step :: rest =>
    let (w, skipped) := r.world.sendAll (Command.readStep step)
    let r := { r with world := w }.settle roundLimit
    if r.world.aborted then none
    else
      let result := r.world.stepResult logged skipped
      let r := { r with world := r.world.clearResults }.tick pause
      (r.runSteps logged rest).map (result :: ·)

namespace Script

def flag (script : Value) (name : String) : Bool :=
  match script.field? name with
  | some (.bool b) => b
  | _ => false

def steps (script : Value) : List Value :=
  match script.field? "steps" with
  | some (.list steps) => steps
  | _ => []

def answer (script : Value) : Value :=
  let detected := if flag script "force_fallback" then Backend.fallback else .native
  match (Schedule.initial (.initial detected)).runSteps (flag script "log") (steps script) with
  | some results => .tagged "steps" (.list results)
  | none => .tagged "error" (.text "abort")

end Script
end Interlock
