import Interlock.Thread.Id
import Interlock.Thread.Name
import Interlock.Text.Quoted

/-!
# Thread objects

A thread object starts threads of the operating system one after the other, and each of them is
joined or detached before the next.

```
NotStarted --start--> Running --join---> Joined
                         |
                         +----detach---> Detached
```

  * `ThreadState`, `Thread`;
  * `ThreadSetting`, `Thread.configured`: what the object asks for when it starts a thread;
  * `Thread.started`, `Thread.released`: what a start and its counterpart write;
  * `Thread.describe`: the text shown to programmers.
-/

namespace Interlock

/-- Where a thread object is in its life. -/
inductive ThreadState where
  | notStarted
  | running
  | joined
  | detached
  deriving DecidableEq

def ThreadState.describe : ThreadState → String
  | .notStarted => "NotStarted"
  | .running => "Running"
  | .joined => "Joined"
  | .detached => "Detached"

/-- What a thread object asks the operating system for when it starts a thread. -/
inductive ThreadSetting where
  | name (text : String)
  | stackSize (bytes : Nat)
  deriving DecidableEq

structure Thread where
  id : ThreadId
  /-- The thread of the operating system that has to be joined or detached. -/
  handle : Option Tid
  state : ThreadState
  name : Option String
  stackSize : Option Nat
  deriving DecidableEq

namespace Thread

/-- A thread object that has not been started. -/
def new (name : Option String) (stackSize : Option Nat) : Thread :=
  ⟨.nobody, none, .notStarted, name, stackSize⟩

instance : Inhabited Thread := ⟨new none none⟩

/-- Whether the object has a thread to join or detach. -/
def running (th : Thread) : Bool := th.state == .running

/-- The object after thread `t` with identity `id` was started. -/
def started (th : Thread) (id : ThreadId) (t : Tid) : Thread :=
  { th with id := id, handle := some t, state := .running }

/-- The object after its thread was joined or detached. -/
def released (th : Thread) (state : ThreadState) : Thread :=
  { th with id := .nobody, state := state }

/-- The object with a setting for its next start. A name is cut at its first NUL. -/
def configured (th : Thread) : ThreadSetting → Thread
  | .name text => { th with name := some (ThreadName.untilNul text) }
  | .stackSize bytes => { th with stackSize := some bytes }

section

variable (th : Thread) (setting : ThreadSetting)

@[simp] theorem configured_id : (th.configured setting).id = th.id := by cases setting <;> rfl

@[simp] theorem configured_handle : (th.configured setting).handle = th.handle := by
  cases setting <;> rfl

@[simp] theorem configured_state : (th.configured setting).state = th.state := by
  cases setting <;> rfl

@[simp] theorem configured_running : (th.configured setting).running = th.running := by
  rw [running, running, configured_state]

end

def describe (th : Thread) : String :=
  "Thread \x7b id: " ++ th.id.describe
    ++ ", handle: " ++ (if th.handle.isSome then "Some(JoinHandle \x7b .. \x7d)" else "None")
    ++ ", state: " ++ th.state.describe
    ++ ", name: " ++ Quoted.quote? th.name
    ++ ", stack_size: "
    ++ (match th.stackSize with
        | some size => "Some(" ++ toString size ++ ")"
        | none => "None")
    ++ " \x7d"

end Thread

end Interlock
