import Interlock.Machine

/-!
# Runs of the machine

What the clients of the library and the environment may do with a machine, and the runs that
arise from it. Any thread may move at any moment, so a statement about every run is a statement
about every interleaving of atomic steps, of any number of threads.

  * `Move`: a thread begins a call, takes one step of it, or ends the code that a call runs for
    it; a client creates an object, a thread comes or goes, time passes;
  * `Machine.allows`: the moves that a client can make. A thread that is in a call makes no other
    one, unless the call runs its code; and an object is destroyed only while no call in progress
    works on it;
  * `Run`: an endless sequence of allowed moves from the initial machine. A finite one goes on
    with moves of no time, which change nothing (`Run.ofList`);
  * `Run.invariant`: what holds at first and is kept by every allowed move holds all the time.
-/

namespace Interlock

/-! ## What a call works on

A reference in the program borrows its object, so the object outlives every call that is made
through it. `Call.objects` lists what a call borrows and `Object.parts` what a destruction takes
away; that the two do not meet is part of `Machine.allows`. -/

def Object.handle : Object → Nat
  | .mutex l => l
  | .condition c => c
  | .once o => o
  | .monitor mo => mo
  | .semaphore r => r
  | .events e => e
  | .thread r => r

/-- The objects that a call in progress works on. A destruction is not among its own users. -/
def Call.objects (s : Store) : Call → List Object
  | .initMutex l | .lock l _ | .unlock l _ | .scope l _ | .unlocked l _ => [.mutex l]
  | .initCond c _ | .wakeup c _ _ => [.condition c]
  | .wait c l _ _ | .waitWhile c l _ _ => [.condition c, .mutex l]
  | .once o _ => [.once o, .mutex (s.onces.get o).lock]
  | .acquire r _ | .tryAcquire r | .release r _ => [.semaphore r]
  | .setEvent e _ _ | .resetEvent e _ | .listen e _ _ => [.events e]
  | .configure r _ | .start r _ | .join r _ | .detach r => [.thread r]
  | .install _ | .currentId | .setName _ | .destroy _ _ => []

/-- The objects that go away with an object: itself and what it owns. -/
def Object.parts (s : Store) : Object → List Object
  | .once o => [.once o, .mutex (s.onces.get o).lock]
  | .monitor mo =>
    let monitor := s.monitors.get mo
    .condition monitor.cond
      :: if s.lockUsers.get monitor.lock ≤ 1 then [.mutex monitor.lock] else []
  | object => [object]

/-! ## Moves

Nothing is said of which thread moves next, how long anything takes or whom the system wakes: the
moves are all that could happen, and the choices that are not the library's come with the move. What
a move may *not* do is only what the types of the program rule out. -/

inductive Creation where
  | mutex (ready : Bool)
  | condition
  | once
  | monitor (backend : Backend)
  /-- A monitor that shares the mutex of an earlier one. -/
  | sharing (mo : MonitorRef)
  | semaphore (permits : Permits)
  | events
  | thread (name : Option String) (stackSize : Option Nat)

def Creation.apply (s : Store) : Creation → Store
  | mutex ready => (s.addMutex (if ready then .ready else .raw)).1
  | condition => (s.addCond .raw).1
  | once => s.addOnce.1
  | monitor backend => (s.addMonitor backend).1
  | sharing mo => (s.shareMonitor mo).1
  | semaphore permits =>
    match s.addSemaphore? permits with
    | .ok (s, _) => s
    | .error _ => s
  | events => s.addEvents.1
  | thread name stackSize => (s.addThread name stackSize).1

/-- What a client or the environment does. -/
inductive Move where
  /-- A thread begins a call. -/
  | begin (t : Tid) (call : Call)
  /-- A thread takes one atomic step of its innermost call. -/
  | advance (t : Tid) (choice : Choice)
  /-- The code that a call runs for its thread has ended. -/
  | endBody (t : Tid) (e : BodyEnd)
  | create (c : Creation)
  /-- A thread appears that the library has not started. -/
  | spawn (creator : Tid)
  | exit (t : Tid) (ending : Ending)
  | tick (n : Nat)

namespace Machine

def apply (m : Machine) : Move → Machine
  | .begin t call => m.begin t call
  | .advance t choice => (m.advance t choice).1
  | .endBody t e => m.endBody t e
  | .create c => { m with store := c.apply m.store }
  | .spawn creator => { m with store := (m.store.addOsThread creator none).1 }
  | .exit t ending => { m with store := m.store.endThread t ending }
  | .tick n => m.tick n

/-- Whether thread `t` exists and has not ended. -/
def lives (m : Machine) (t : Tid) : Bool :=
  t < m.store.nextThread && (m.store.osThreads.get t).ending.isNone

/-- Whether thread `t` runs code of the client's: it is in no call, or in the body of one. -/
def inClient (m : Machine) (t : Tid) : Bool :=
  m.lives t && (m.call? t).all Call.atBody

/-- Whether no call in progress works on an object or on what goes away with it. -/
def unused (m : Machine) (o : Object) : Bool :=
  (List.range m.store.nextThread).all fun t =>
    (m.calls.get t).all fun call =>
      (o.parts m.store).all fun part => !(call.objects m.store).contains part

/-- Whether the objects that a call works on exist. -/
def knows (m : Machine) (call : Call) : Bool :=
  (call.objects m.store).all (·.handle < m.store.nextHandle)

/-- The moves that are possible. -/
def allows (m : Machine) : Move → Bool
  | .begin t call => m.inClient t && call.isFresh && m.knows call
  | .advance t _ =>
    match m.call? t with
    | some (.destroy o _) => m.unused o
    | _ => true
  | .endBody t _ => (m.call? t).any Call.atBody
  | .create (.sharing mo) => mo < m.store.nextHandle
  | .create _ => true
  | .spawn creator => m.inClient creator
  | .exit t _ => m.lives t && (m.calls.get t).isEmpty
  | .tick _ => true

/-- The machine after the first `i` of a sequence of moves. -/
def after (move : Nat → Move) : Nat → Machine
  | 0 => .initial
  | i + 1 => (after move i).apply (move i)

end Machine

/-! ## Runs -/

/-- A sequence of moves from the initial machine, each of them possible when it is made. -/
structure Run where
  move : Nat → Move
  allowed : ∀ i, (Machine.after move i).allows (move i) = true

namespace Run

def state (r : Run) (i : Nat) : Machine := Machine.after r.move i

theorem state_succ (r : Run) (i : Nat) : r.state (i + 1) = (r.state i).apply (r.move i) := rfl

/-- An atomic step of a call is the machine's `advance`. -/
theorem state_of_advance {r : Run} {i : Nat} {t : Tid} {choice : Choice}
    (hmove : r.move i = .advance t choice) :
    r.state (i + 1) = ((r.state i).advance t choice).1 := by
  rw [state_succ, hmove]
  rfl

theorem state_allows (r : Run) (i : Nat) : (r.state i).allows (r.move i) = true := r.allowed i

/-- What holds at first and is kept by every possible move holds all the time. -/
theorem invariant {P : Machine → Prop} (hinit : P .initial)
    (hstep : ∀ m move, m.allows move = true → P m → P (m.apply move)) (r : Run) :
    ∀ i, P (r.state i) := by
  intro i
  induction i with
  | zero => exact hinit
  | succ i ih => exact hstep _ _ (r.allowed i) ih

/-! ### Finite runs

A test of the theory is a list of moves, and a run is endless. The list is padded with moves that
let no time pass: they are always possible and change nothing, so that what is checked along the
list (`along`, a computation) holds at every moment of the run (`along_extend`). -/

/-- Whether a list of moves is made from a machine on only where `P` permits it. -/
def along (P : Machine → Move → Bool) (m : Machine) : List Move → Bool
  | [] => true
  | move :: rest => P m move && along P (m.apply move) rest

/-- Whether a list of moves is possible from a machine on. -/
def feasible (m : Machine) (moves : List Move) : Bool := along Machine.allows m moves

/-- The moves of a list, and then no time passes for ever. -/
def extend (moves : List Move) (i : Nat) : Move := moves.getD i (.tick 0)

def follow (m : Machine) (moves : List Move) : Machine := moves.foldl Machine.apply m

/-- The padding does not change the moments of the list itself. -/
theorem after_extend (moves : List Move) {i : Nat} (hi : i ≤ moves.length) :
    Machine.after (extend moves) i = follow .initial (moves.take i) := by
  induction i with
  | zero => rfl
  | succ i ih =>
    have hlt : i < moves.length := hi
    rw [Machine.after, ih (Nat.le_of_lt hlt), List.take_succ_eq_append_getElem hlt, follow,
      follow, List.foldl_append]
    simp [extend, hlt]

/-- What is checked along a list holds of each of its moves. -/
theorem along_getElem {P : Machine → Move → Bool} {m : Machine} {moves : List Move}
    (h : along P m moves = true) {i : Nat} (hi : i < moves.length) :
    P (follow m (moves.take i)) moves[i] = true := by
  induction moves generalizing m i with
  | nil => simp at hi
  | cons move rest ih =>
    simp only [along, Bool.and_eq_true] at h
    cases i with
    | zero => exact h.1
    | succ i => exact ih h.2 (Nat.lt_of_succ_lt_succ hi)

/-- What is permitted along a list is permitted for ever, if no time may pass at any moment. -/
theorem along_extend {P : Machine → Move → Bool} (htick : ∀ m, P m (.tick 0) = true)
    {moves : List Move} (h : along P .initial moves = true) (i : Nat) :
    P (Machine.after (extend moves) i) (extend moves i) = true := by
  by_cases hi : i < moves.length
  · rw [after_extend moves (Nat.le_of_lt hi)]
    simpa [extend, hi] using along_getElem h hi
  · have hlast : extend moves i = .tick 0 := by
      rw [extend, List.getD_eq_getElem?_getD, List.getElem?_eq_none (by omega)]
      rfl
    rw [hlast]
    exact htick _

/-- The run that makes the moves of a list. -/
def ofList (moves : List Move) (h : feasible .initial moves = true) : Run where
  move := extend moves
  allowed := along_extend (fun _ => rfl) h

def steps (t : Tid) (n : Nat) : List Move := List.replicate n (.advance t ⟨0, false⟩)

end Run

end Interlock
