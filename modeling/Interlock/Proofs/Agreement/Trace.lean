import Interlock.Proofs.Run

/-!
# What can be seen of a run

The clients of a program see what they do themselves, what their calls tell them, and in which order
mutexes are taken. Which backend a condition variable has is not part of it.

  * `Shown`, `Machine.shows`, `Run.trace`: what is seen of a move, and of the first moves of a run;
  * `Move.isOn`: the moves of a program that works with mutexes and condition variables of one
    backend, and with nothing else;
  * `Machine.trace`, `Run.trace_ofList`: the same for a list of moves.
-/

namespace Interlock

/-! ## Programs on one backend

Two backends can be compared only where a program uses one of them throughout. It may use mutexes,
monitors and threads besides condition variables; what is built from other parts of the library is
left out. -/

def WakeupPhase.isOn : Backend → WakeupPhase → Bool
  | _, entry => true
  | backend, notify => backend == .native
  | backend, _ => backend == .fallback

def WaitPhase.isOn : Backend → WaitPhase → Bool
  | backend, native _ => backend == .native
  | backend, fallback _ => backend == .fallback
  | _, _ => true

def WaitWhilePhase.isOn (backend : Backend) : WaitWhilePhase → Bool
  | waiting _ _ p => p.isOn backend
  | _ => true

/-- The objects of mutexes and condition variables. -/
def Object.isPlain : Object → Bool
  | mutex _ | condition _ | monitor _ => true
  | _ => false

/-- Whether a call works with mutexes and condition variables, and with these on one backend. -/
def Call.isOn (backend : Backend) : Call → Bool
  | initMutex _ | lock _ _ | unlock _ _ | scope _ _ | unlocked _ _ => true
  | initCond _ chosen => chosen == backend
  | wakeup _ _ p => p.isOn backend
  | wait _ _ _ p => p.isOn backend
  | waitWhile _ _ _ p => p.isOn backend
  | destroy o _ => o.isPlain
  | _ => false

def Creation.isOn (backend : Backend) : Creation → Bool
  | mutex _ | condition => true
  | monitor chosen => chosen == backend
  | _ => false

/-- Whether a move is made by a program that uses only mutexes and condition variables of one
backend. Threads may come and go, and time may pass. -/
def Move.isOn (backend : Backend) : Move → Bool
  | .begin _ call => call.isOn backend
  | .create c => c.isOn backend
  | _ => true

/-! ## The same program on the platform's backend

The backend of a condition variable is chosen where it is initialized, and that of a monitor where
it is created. Nothing else in a program has to be rewritten. -/

def Call.onNative : Call → Call
  | initCond c _ => initCond c .native
  | call => call

def Creation.onNative : Creation → Creation
  | monitor _ => monitor .native
  | c => c

/-! ## What is seen

The steps that a call takes between its beginning and its end are not seen, except that it takes a
mutex: in which order threads take mutexes decides what clients find in the data that these protect.
A step that cannot be taken shows nothing. -/

/-- What is seen of a run. -/
inductive Shown where
  | begun (t : Tid) (call : Call)
  | ended (t : Tid) (e : BodyEnd)
  | created (c : Creation)
  | spawned (creator : Tid)
  | exited (t : Tid) (ending : Ending)
  | ticked (n : Nat)
  /-- Thread `t` takes mutex `l`. -/
  | took (t : Tid) (l : LockRef)
  /-- Thread `t` learns that its call has ended, or that it runs code of its client's. -/
  | told (t : Tid) (notice : Notice)

def Notice.isShown : Notice → Bool
  | working | blocked => false
  | _ => true

namespace Machine

/-- The mutex that thread `t` takes in a step, if it can take the step. -/
def takes (m : Machine) (t : Tid) : List Shown :=
  match m.wanted t with
  | some l => [.took t l]
  | none => []

/-- What is seen of a step of thread `t`. -/
def reports (m : Machine) (t : Tid) (notice : Notice) : List Shown :=
  (if notice = .blocked then [] else m.takes t) ++ if notice.isShown then [.told t notice] else []

/-- What is seen of a move. -/
def shows (m : Machine) : Move → List Shown
  | .begin t call => [.begun t call.onNative]
  | .advance t choice => m.reports t (m.advance t choice).2
  | .endBody t e => [.ended t e]
  | .create c => [.created c.onNative]
  | .spawn creator => [.spawned creator]
  | .exit t ending => [.exited t ending]
  | .tick n => [.ticked n]

/-- Nothing changes in no time. -/
theorem tick_zero (m : Machine) : m.tick 0 = m := by
  have hclock (now : Instant) : now.advance 0 = now := by
    obtain ⟨nanos, hle, hlt⟩ := now
    simp only [Instant.advance, Instant.mk.injEq]
    omega
  rw [tick, hclock]

/-- What is seen of a list of moves. -/
def trace (m : Machine) : List Move → List Shown
  | [] => []
  | move :: rest => m.shows move ++ (m.apply move).trace rest

end Machine

namespace Run

/-- What is seen of the first `n` moves of a run. -/
def trace (r : Run) (n : Nat) : List Shown :=
  (List.range n).flatMap fun i => (r.state i).shows (r.move i)

/-- All moves of the run are those of a program on one backend. -/
def IsOn (r : Run) (backend : Backend) : Prop := ∀ i, (r.move i).isOn backend = true

theorem trace_succ (r : Run) (n : Nat) :
    r.trace (n + 1) = r.trace n ++ (r.state n).shows (r.move n) := by
  simp [trace, List.range_succ]

/-! ### Lists of moves

The twin answers one move with a list of moves, so what is seen of a run is put together from what
is seen of lists. -/

theorem follow_append (m : Machine) (moves rest : List Move) :
    follow m (moves ++ rest) = follow (follow m moves) rest :=
  List.foldl_append

theorem along_append {P : Machine → Move → Bool} (m : Machine) (moves rest : List Move) :
    along P m (moves ++ rest) = (along P m moves && along P (follow m moves) rest) := by
  induction moves generalizing m with
  | nil => rfl
  | cons move moves ih => simp only [List.cons_append, along, ih, Bool.and_assoc, follow,
      List.foldl_cons]

/-- Two lists of moves show one after the other what each of them shows. -/
theorem trace_append (m : Machine) (moves rest : List Move) :
    m.trace (moves ++ rest) = m.trace moves ++ (follow m moves).trace rest := by
  induction moves generalizing m with
  | nil => rfl
  | cons move moves ih => simp only [List.cons_append, Machine.trace, ih, List.append_assoc,
      follow, List.foldl_cons]

theorem state_ofList {moves : List Move} (h : feasible .initial moves = true) :
    (ofList moves h).state moves.length = follow .initial moves := by
  rw [state, ofList, after_extend moves (Nat.le_refl _), List.take_length]

/-- What holds after each of the moves of a list holds all along its run. -/
theorem forall_state_ofList {P : Machine → Prop} {moves : List Move}
    (h : feasible .initial moves = true)
    (hP : ∀ i ≤ moves.length, P (follow .initial (moves.take i))) (i : Nat) :
    P ((ofList moves h).state i) := by
  induction i with
  | zero => exact hP 0 (Nat.zero_le _)
  | succ i ih =>
    by_cases hi : i < moves.length
    · rw [state, ofList, after_extend moves hi]
      exact hP (i + 1) hi
    · have hmove : (ofList moves h).move i = .tick 0 := by
        simp [ofList, extend, List.getElem?_eq_none (Nat.le_of_not_lt hi)]
      rwa [state_succ, hmove, Machine.apply, Machine.tick_zero]

/-- The run of a list of moves shows what they show. -/
theorem trace_ofList {moves : List Move} (h : feasible .initial moves = true) :
    (ofList moves h).trace moves.length = Machine.initial.trace moves := by
  suffices hfirst : ∀ n ≤ moves.length,
      (ofList moves h).trace n = Machine.initial.trace (moves.take n) by
    rw [hfirst _ (Nat.le_refl _), List.take_length]
  intro n hn
  induction n with
  | zero => rfl
  | succ n ih =>
    have hlt : n < moves.length := hn
    rw [trace_succ, ih (Nat.le_of_lt hlt), List.take_succ_eq_append_getElem hlt, trace_append]
    have hstate : (ofList moves h).state n = follow .initial (moves.take n) :=
      after_extend moves (Nat.le_of_lt hlt)
    have hmove : (ofList moves h).move n = moves[n] := by
      simp [ofList, extend, hlt]
    simp only [hstate, hmove, Machine.trace, List.append_nil]

/-- The run of a list of moves works with the backend that they work with. -/
theorem isOn_ofList {backend : Backend} {moves : List Move}
    (h : feasible .initial moves = true) (hmoves : moves.all (Move.isOn backend) = true) :
    (ofList moves h).IsOn backend := by
  intro i
  simp only [ofList, extend, List.getD_eq_getElem?_getD]
  cases hget : moves[i]? with
  | none => rfl
  | some move => exact List.all_eq_true.1 hmoves move (List.mem_of_getElem? hget)

end Run

end Interlock
