import Interlock.Call

/-!
# What a step leaves behind

A step of a call goes on, ends with a reply, ends with a panic, or cannot be taken. `Meets` says
what is required of each of these, and it is proved of a call from the same statement about its
parts (`Meets.within`): the phases of locking, for instance, occur in six kinds of calls and are
looked at once.

`Store.Frame` is what no step of any call changes: the clock, the handles given out, the parts of
monitors, which mutex a run-once gate uses, and how threads have ended; threads only become more
(`Call.step_frame`). Run-once gates are only ever completed (`Call.step_still`); thread objects,
semaphores and wake events are left to the calls that work on one (`Call.step_settled`,
`Call.step_semaphores`, `Call.step_events`), and the users of a mutex to destructions
(`Call.step_lockUsers`).
-/

namespace Interlock

variable {φ ψ ρ τ : Type}

/-! ## What is required of a step

A call is built of parts, each with phases of its own: `wait` locks, `scope` unlocks. The rules
below follow the combinators that put parts together (`within`, `lift`, `withLock`, `passOn`,
`whileUnwinding`), one rule for each, so that a statement about a call is proved by naming its parts
in the order in which the code runs them. -/

namespace Progress

/-- What is required of each way a step can go: of the store and the phase it goes on with, of
the store and the reply it ends with, and of the store that a panic leaves. -/
def Meets (next : Store → φ → Prop) (done : Store → ρ → Prop) (failed : Store → Prop) :
    Progress φ ρ → Prop
  | .next s phase => next s phase
  | .done s reply => done s reply
  | .fault s _ | .abort s => failed s
  | .blocked => True

/-- The step does not panic, nor end the process. -/
def Succeeds : Progress φ ρ → Prop :=
  Meets (fun _ _ => True) (fun _ _ => True) fun _ => False

/-- Every store that the step may leave satisfies `P`. -/
def Keeps (P : Store → Prop) : Progress φ ρ → Prop :=
  Meets (fun s _ => P s) (fun s _ => P s) P

instance {P : Store → Prop} [DecidablePred P] : (p : Progress φ ρ) → Decidable (p.Keeps P)
  | .next s _ | .done s _ | .fault s _ | .abort s => inferInstanceAs (Decidable (P s))
  | .blocked => isTrue trivial

section

variable {p : Progress φ ρ} {next : Store → φ → Prop} {done : Store → ρ → Prop}
  {failed : Store → Prop}

/-- A whole goes on when its part does, or when the part has ended and the whole goes on after its
reply. -/
theorem next_of_within {wrap : φ → ψ} {finish : Store → ρ → Progress ψ τ} {s : Store} {phase : ψ}
    (h : p.within wrap finish = .next s phase) :
    (∃ part, p = .next s part ∧ phase = wrap part) ∨
      ∃ s' reply, p = .done s' reply ∧ finish s' reply = .next s phase := by
  cases p with
  | next s' part =>
    cases h
    exact .inl ⟨part, rfl, rfl⟩
  | done s' reply => exact .inr ⟨s', reply, rfl, h⟩
  | _ => cases h

/-- A call of one kind goes on as that kind of call. -/
theorem next_of_lift {wrap : φ → Call} {reply : ρ → Reply} {s : Store} {call : Call}
    (h : Call.lift wrap reply p = .next s call) :
    ∃ phase, p = .next s phase ∧ call = wrap phase := by
  obtain hnext | ⟨_, _, -, hdone⟩ := next_of_within h
  · exact hnext
  · cases hdone

theorem next_of_passOn {wrap : φ → ψ} {reply : τ} {pending : Option Panic} {s : Store} {phase : ψ}
    (h : ((p.whileUnwinding pending).within wrap fun s _ => .passOn s reply pending) =
      .next s phase) : ∃ part, p = .next s part ∧ phase = wrap part := by
  cases pending <;> cases p <;> cases h <;> exact ⟨_, rfl, rfl⟩

/-- A step of a part meets what the whole requires, if the part's phases are phases of the whole
and the whole goes on well after the part's reply. -/
theorem Meets.within {wrap : φ → ψ} {finish : Store → ρ → Progress ψ τ}
    {next' : Store → ψ → Prop} {done' : Store → τ → Prop} {failed' : Store → Prop}
    (h : p.Meets next done failed) (hnext : ∀ s phase, next s phase → next' s (wrap phase))
    (hdone : ∀ s reply, done s reply → (finish s reply).Meets next' done' failed')
    (hfailed : ∀ s, failed s → failed' s) :
    (p.within wrap finish).Meets next' done' failed' := by
  cases p with
  | next s phase => exact hnext s phase h
  | done s reply => exact hdone s reply h
  | fault s why => exact hfailed s h
  | blocked => exact h
  | abort s => exact hfailed s h

/-- What is required may be weakened, way by way. -/
theorem Meets.mono {next' : Store → φ → Prop} {done' : Store → ρ → Prop} {failed' : Store → Prop}
    (h : p.Meets next done failed) (hnext : ∀ s phase, next s phase → next' s phase)
    (hdone : ∀ s reply, done s reply → done' s reply) (hfailed : ∀ s, failed s → failed' s) :
    p.Meets next' done' failed' := by
  cases p with
  | next s phase => exact hnext s phase h
  | done s reply => exact hdone s reply h
  | fault s why => exact hfailed s h
  | blocked => trivial
  | abort s => exact hfailed s h

/-- Two requirements of the same step are one requirement. -/
theorem Meets.and {next' : Store → φ → Prop} {done' : Store → ρ → Prop} {failed' : Store → Prop}
    (h : p.Meets next done failed) (h' : p.Meets next' done' failed') :
    p.Meets (fun s phase => next s phase ∧ next' s phase)
      (fun s reply => done s reply ∧ done' s reply) fun s => failed s ∧ failed' s := by
  cases p <;> first | exact ⟨h, h'⟩ | exact h

/-- A step that needs an initialized mutex is taken only where there is one. -/
theorem Meets.withLock {s : Store} {l : LockRef} {step : LockState → Progress φ ρ}
    {next : Store → φ → Prop} {done : Store → ρ → Prop} {failed : Store → Prop}
    (h : ∀ k, s.lock l = some k → (step k).Meets next done failed) :
    (s.withLock l step).Meets next done failed := by
  unfold Store.withLock
  split
  · exact h _ ‹_›
  · trivial

/-- That a second panic ends the process makes no difference to the store it leaves. -/
theorem Meets.whileUnwinding (h : p.Meets next done failed) (pending : Option Panic) :
    (p.whileUnwinding pending).Meets next done failed := by
  unfold Progress.whileUnwinding
  split
  · cases p <;> exact h
  · exact h

/-- The end of a call that ran a body: it replies, or the panic of the body goes on. -/
theorem Meets.passOn {s : Store} {reply : ρ} (hdone : done s reply) (hfailed : failed s)
    (pending : Option Panic) :
    (Progress.passOn s reply pending : Progress φ ρ).Meets next done failed := by
  cases pending with
  | none => exact hdone
  | some why => exact hfailed

end

variable {P P' : Store → Prop} {p : Progress φ ρ}

theorem Keeps.imp (h : p.Keeps P) (hP : ∀ s, P s → P' s) : p.Keeps P' :=
  Meets.mono h (fun s _ => hP s) (fun s _ => hP s) hP

theorem Keeps.storeFrom {s : Store} (h : p.Keeps P) (hs : P s) : P (p.storeFrom s) := by
  cases p <;> first | exact h | exact hs

/-- The end of a call that ran a body does not touch the store. -/
theorem Keeps.passOn {s : Store} (h : P s) (reply : ρ) (pending : Option Panic) :
    (Progress.passOn s reply pending : Progress φ ρ).Keeps P :=
  Meets.passOn h h pending

/-- That a second panic ends the process makes no difference to what the stores satisfy. -/
theorem Keeps.whileUnwinding (h : p.Keeps P) (pending : Option Panic) :
    (p.whileUnwinding pending).Keeps P :=
  Meets.whileUnwinding h pending

theorem Keeps.within {wrap : φ → ψ} {finish : Store → ρ → Progress ψ τ} (h : p.Keeps P)
    (hdone : ∀ s reply, P s → (finish s reply).Keeps P) : (p.within wrap finish).Keeps P :=
  Meets.within h (fun _ _ hs => hs) hdone (fun _ hs => hs)

end Progress

/-! ## What no step changes

Four relations between the store before a step and the store after it, each of which says more than
the one before: `Frame`, `Still`, `Settled` and `Apart`. Each part of a call is proved to keep the
last of them that it can, and what a call keeps follows from its parts. Later invariants cite these
lemmas for all the calls they do not concern, and look at the rest. -/

/-- The parts of the store that belong to no call. -/
structure Store.Frame (s s' : Store) : Prop where
  clock : s'.clock = s.clock
  nextHandle : s'.nextHandle = s.nextHandle
  nextThread : s.nextThread ≤ s'.nextThread
  monitors : s'.monitors = s.monitors
  gates : ∀ o, (s'.onces.get o).lock = (s.onces.get o).lock
  /-- No thread ends in a step of a call, and a new one has not ended. -/
  endings : ∀ u, (s'.osThreads.get u).ending = (s.osThreads.get u).ending ∨
    u = s.nextThread ∧ (s'.osThreads.get u).ending = none

/-- The same, and all run-once gates and users of mutexes. -/
structure Store.Still (s s' : Store) : Prop extends s.Frame s' where
  onces : s'.onces = s.onces
  lockUsers : s'.lockUsers = s.lockUsers

/-- Stillness is checked table by table where no thread appears and no gate is completed. -/
theorem Store.Still.of_same {s s' : Store} (hclock : s'.clock = s.clock := by rfl)
    (hhandle : s'.nextHandle = s.nextHandle := by rfl)
    (hthread : s'.nextThread = s.nextThread := by rfl)
    (hmonitors : s'.monitors = s.monitors := by rfl) (honces : s'.onces = s.onces := by rfl)
    (hendings : ∀ u, (s'.osThreads.get u).ending = (s.osThreads.get u).ending := by
      exact fun _ => rfl) (husers : s'.lockUsers = s.lockUsers := by rfl) : s.Still s' :=
  ⟨⟨hclock, hhandle, hthread ▸ Nat.le_refl _, hmonitors, fun _ => by rw [honces],
    fun u => .inl (hendings u)⟩, honces, husers⟩

theorem Store.Still.refl (s : Store) : s.Still s := .of_same

/-- A still store in which all thread objects stay as they are, too. -/
structure Store.Settled (s s' : Store) : Prop extends s.Still s' where
  threads : s'.threads = s.threads

/-- The same with the table of thread objects. -/
theorem Store.Settled.of_same {s s' : Store} (hstill : s.Still s' := by exact .of_same)
    (hthreads : s'.threads = s.threads := by rfl) : s.Settled s' := ⟨hstill, hthreads⟩

/-- The same, and all semaphores and wake events. -/
structure Store.Apart (s s' : Store) : Prop extends s.Settled s' where
  semaphores : s'.semaphores = s.semaphores
  events : s'.events = s.events

theorem Store.Apart.of_same {s s' : Store} (hsettled : s.Settled s' := by exact .of_same)
    (hsemaphores : s'.semaphores = s.semaphores := by rfl)
    (hevents : s'.events = s.events := by rfl) : s.Apart s' := ⟨hsettled, hsemaphores, hevents⟩

variable {t : Tid} {s : Store}

theorem LockPhase.step_apart {l : LockRef} (p : LockPhase) : (p.step t l s).Keeps s.Apart := by
  cases p <;> simp only [step, Store.violate, Store.withLock] <;> (repeat' split) <;>
    first | exact trivial | exact .of_same

theorem UnlockPhase.step_apart {l : LockRef} (p : UnlockPhase) :
    (p.step t l s).Keeps s.Apart := by
  cases p <;> simp only [step, Store.violate, Store.withLock] <;> (repeat' split) <;>
    first | exact trivial | exact .of_same

theorem WakeupPhase.step_apart {c : CondRef} {event : WakeEvent} {choice : Choice}
    (p : WakeupPhase) : (p.step c event choice s).Keeps s.Apart := by
  cases p <;> simp only [step, Store.violate, Store.withNative, Store.withFallback] <;>
    (repeat' split) <;> first | exact trivial | exact .of_same

/-- A wait at a native condition variable writes the tables of mutexes and condition variables. -/
theorem NativeWaitPhase.step_apart {c : CondRef} {l : LockRef} {timeout : Option Duration}
    (p : NativeWaitPhase) : (p.step t c l timeout s).Keeps s.Apart := by
  cases p <;> simp only [step, Store.violate, Store.withNative, Store.withLock] <;>
    (repeat' split) <;> first | exact trivial | exact .of_same

/-- So does a wait at a portable one, in each of its phases. -/
theorem FallbackWaitPhase.step_apart {c : CondRef} {l : LockRef} {timeout : Option Duration}
    (p : FallbackWaitPhase) : (p.step t c l timeout s).Keeps s.Apart := by
  cases p with
  | unlocking p => exact p.step_apart.within fun _ _ hs => hs
  | locking p wokenBy => exact p.step_apart.within fun _ _ hs => hs
  | _ =>
    simp only [step, Store.violate, Store.withFallback, afterDeparture]
    (repeat' split) <;> first | exact trivial | exact .of_same

/-- A wait is, after its checks, a wait of one of the two backends. -/
theorem WaitPhase.step_apart {c : CondRef} {l : LockRef} {timeout : Option Duration}
    (p : WaitPhase) : (p.step t c l timeout s).Keeps s.Apart := by
  cases p with
  | native p => exact p.step_apart.within fun _ _ hs => hs
  | fallback p => exact p.step_apart.within fun _ _ hs => hs
  | _ =>
    simp only [step, Store.violate, Store.withLock]
    (repeat' split) <;> first | exact trivial | exact .of_same

-- a wait at what was never initialized fails, and still gives out no handle
example : (WaitPhase.entry.step 0 0 0 none .initial).Keeps (·.nextHandle = 0) := by decide +kernel

theorem Store.reportDrop_fst (s : Store) (unwinding : Bool) (v : Option Violation) :
    (s.reportDrop unwinding v).1 = { s with log := (s.reportDrop unwinding v).1.log } := by
  cases v <;> rfl

/-- The destructor of a mutex leaves it raw, and reports a violation if there is one. -/
theorem Store.destroyMutex_fst (s : Store) (l : LockRef) (unwinding : Bool) :
    (s.destroyMutex l unwinding).1 =
      { s.setMutex l .raw with log := (s.destroyMutex l unwinding).1.log } :=
  reportDrop_fst _ _ _

/-- The destructor of a condition variable leaves it raw, and reports a violation if there is
one. -/
theorem Store.destroyCond_fst (s : Store) (c : CondRef) (unwinding : Bool) :
    (s.destroyCond c unwinding).1 =
      { s.setCond c .raw with log := (s.destroyCond c unwinding).1.log } :=
  reportDrop_fst _ _ _

/-- A destruction writes the log and the tables of mutexes and condition variables only. -/
theorem Store.destroy_fst (s : Store) (object : Object) (unwinding : Bool) :
    ∃ log locks lockUsers conds, (s.destroy object unwinding).1 =
      { s with log := log, locks := locks, lockUsers := lockUsers, conds := conds } := by
  cases object with
  | mutex l => exact ⟨_, _, _, _, destroyMutex_fst s l unwinding⟩
  | condition c => exact ⟨_, _, _, _, destroyCond_fst s c unwinding⟩
  | once o => exact ⟨_, _, _, _, destroyMutex_fst s _ unwinding⟩
  | semaphore r => exact ⟨_, _, _, _, rfl⟩
  | events e => exact ⟨_, _, _, _, rfl⟩
  | thread r => exact ⟨_, _, _, _, reportDrop_fst s unwinding _⟩
  | monitor mo =>
    simp only [destroy, destroyMonitor, releaseShare]
    split
    · rw [destroyCond_fst, destroyMutex_fst]
      exact ⟨_, _, _, _, rfl⟩
    · rw [destroyCond_fst]
      exact ⟨_, _, _, _, rfl⟩

/-- The step that runs a destructor leaves what the destructor leaves, whether it panics or not. -/
theorem destroyStep_keeps (object : Object) (unwinding : Bool) :
    (destroyStep object unwinding s : Progress φ Unit).Keeps fun s' =>
      ∃ log locks lockUsers conds,
        s' = { s with log := log, locks := locks, lockUsers := lockUsers, conds := conds } := by
  have h := s.destroy_fst object unwinding
  unfold destroyStep
  split <;> rename_i heq <;> rw [heq] at h <;> exact h

-- also where the destructor has nothing to destroy
example :
    (destroyStep (.mutex 0) false .initial : Progress Unit Unit).Keeps (·.nextThread = 1) := by
  decide +kernel

/-- A scope locks, runs its body and unlocks. -/
theorem ScopePhase.step_apart {l : LockRef} (p : ScopePhase) :
    (p.step t l s).Keeps s.Apart := by
  cases p with
  | locking p => exact p.step_apart.within fun _ _ hs => hs
  | body => exact trivial
  | unlocking p pending =>
    exact (p.step_apart.whileUnwinding pending).within fun _ reply hs =>
      Progress.Keeps.passOn hs reply pending

/-- A scope that is unlocked for a while unlocks, runs its body and locks again. -/
theorem UnlockedPhase.step_apart {l : LockRef} (p : UnlockedPhase) :
    (p.step t l s).Keeps s.Apart := by
  cases p with
  | unlocking p => exact p.step_apart.within fun _ _ hs => hs
  | body => exact trivial
  | relocking p pending =>
    exact (p.step_apart.whileUnwinding pending).within fun _ reply hs =>
      Progress.Keeps.passOn hs reply pending

/-- A loop around waits changes what its waits change. -/
theorem WaitWhilePhase.step_apart {c : CondRef} {l : LockRef} {timeout : Option Duration}
    (p : WaitWhilePhase) : (p.step t c l timeout s).Keeps s.Apart := by
  cases p with
  | waiting start rest p => exact p.step_apart.within fun _ _ hs => hs
  | _ =>
    simp only [step]
    (repeat' split) <;> first | exact trivial | exact .of_same

/-- A run-once call works on the mutex of its gate, until it completes the gate. -/
theorem OncePhase.step_apart {o : OnceRef} {p : OncePhase} (h : p ≠ complete) :
    (p.step t o s).Keeps s.Apart := by
  cases p with
  | locking p => exact p.step_apart.within fun _ _ hs => hs
  | callback => exact trivial
  | unlocking p finish =>
    exact (p.step_apart.whileUnwinding finish.panic?).within fun _ _ hs =>
      Progress.Keeps.passOn hs _ finish.panic?
  | complete => exact absurd rfl h
  | _ =>
    simp only [step]
    split <;> exact .of_same

/-- A gate that is completed keeps its mutex. -/
theorem OncePhase.complete_frame {o : OnceRef} :
    (complete.step t o s).Keeps s.Frame := by
  refine ⟨rfl, rfl, Nat.le_refl _, rfl, ?_, fun _ => .inl rfl⟩
  intro o'
  simp only [Store.setOnce, Table.get_set]
  split
  · subst o'
    rfl
  · rfl

theorem AcquirePhase.step_settled {r : SemaphoreRef} (p : AcquirePhase) :
    (p.step t r s).Keeps s.Settled := by
  cases p <;> simp only [step, attemptStep] <;> (repeat' split) <;>
    first | exact trivial | exact .of_same

theorem ReleasePhase.step_settled {r : SemaphoreRef} {choice : Choice} (p : ReleasePhase) :
    (p.step r choice s).Keeps s.Settled := by
  cases p <;> simp only [step, Store.violate] <;> (repeat' split) <;>
    first | exact trivial | exact .of_same

-- a permit beyond the limit is a violation, and changes no clock
example : (ReleasePhase.put.step 0 ⟨0, false⟩ .initial).Keeps (·.clock = .start) := by
  decide +kernel

theorem SetPhase.step_settled {e : EventsRef} {event : WakeEvent} (p : SetPhase) :
    (p.step e event s).Keeps s.Settled := by
  cases p <;> first | exact trivial | exact .of_same

theorem ListenPhase.step_settled {e : EventsRef} {timeout : Option Duration} (p : ListenPhase) :
    (p.step t e timeout s).Keeps s.Settled := by
  cases p <;> simp only [step, look] <;> (repeat' split) <;> first | exact trivial | exact .of_same

/-- Of the threads, only the new one is written, and it has not ended. -/
theorem Store.addOsThread_endings (s : Store) (creator : Tid) (name : Option String) (u : Tid) :
    ((s.addOsThread creator name).1.osThreads.get u).ending = (s.osThreads.get u).ending ∨
      u = s.nextThread ∧ ((s.addOsThread creator name).1.osThreads.get u).ending = none := by
  simp only [addOsThread, Table.get_set]
  split
  · exact .inr ⟨‹_›, rfl⟩
  · exact .inl rfl

/-- A thread that is named goes on. -/
theorem Store.nameThread_endings (s : Store) (t : Tid) (name : String) (u : Tid) :
    ((s.nameThread t name).osThreads.get u).ending = (s.osThreads.get u).ending := by
  obtain ⟨log, hreport⟩ := s.exists_reportName_eq name
  rw [nameThread, setOsThread, Table.get_set, hreport]
  split
  · subst u
    rfl
  · rfl

/-- A start writes the thread objects, the threads and the handles to join them by. -/
theorem StartPhase.step_still {r : ThreadRef} {choice : Choice} (p : StartPhase) :
    (p.step t r choice s).Keeps s.Still := by
  cases p with
  | spawn id =>
    simp only [step]
    (repeat' split) <;> first
      | exact .refl s
      | refine ⟨⟨rfl, rfl, Nat.le_succ _, rfl, fun _ => rfl, fun u => ?_⟩, rfl, rfl⟩
    exact s.addOsThread_endings t _ u
  | _ =>
    simp only [step, Store.violate]
    (repeat' split) <;> first | exact trivial | exact .of_same

/-- A call that takes a running thread object takes its handle, and is otherwise as still as what it
does then. -/
theorem takeRunning_still {r : ThreadRef} {op : ThreadOp} {f : Store → Tid → Progress φ ρ}
    (h : ∀ s' child, s.Still s' → (f s' child).Keeps s.Still) :
    (takeRunning r op s f).Keeps s.Still := by
  unfold takeRunning
  dsimp only
  split
  · exact h _ _ .of_same
  · exact .of_same

/-- Joining writes the thread object, and ends no thread. -/
theorem JoinPhase.step_still {r : ThreadRef} (p : JoinPhase) :
    (p.step t r s).Keeps s.Still := by
  cases p with
  | entry =>
    have next (s' : Store) (child : Tid) (hs : s.Still s') :
        (Progress.next s' (waiting child) : Progress JoinPhase Unit).Keeps s.Still := hs
    exact takeRunning_still next
  | waiting child =>
    simp only [step, finish]
    (repeat' split) <;> first | exact trivial | exact .of_same

/-- The thread object that a call works on. -/
def Call.thread? : Call → Option ThreadRef
  | configure r _ | start r _ | join r _ | detach r => some r
  | _ => none

/-- The semaphore that a call works on. -/
def Call.semaphore? : Call → Option SemaphoreRef
  | acquire r _ | tryAcquire r | release r _ => some r
  | _ => none

/-- The pair of wake events that a call works on. -/
def Call.events? : Call → Option EventsRef
  | setEvent e _ _ | resetEvent e _ | listen e _ _ => some e
  | _ => none

theorem Call.step_destroy {choice : Choice} (object : Object) (unwinding : Bool) :
    ((destroy object unwinding).step t choice s).Keeps fun s' => ∃ log locks lockUsers conds,
      s' = { s with log := log, locks := locks, lockUsers := lockUsers, conds := conds } :=
  (destroyStep_keeps object unwinding).within fun _ _ hs => hs

/-- No step changes the parts of the store that belong to no call, nor the users of mutexes, but
for a destruction; nor a run-once gate, but for the step that completes a gate; nor thread objects,
semaphores and wake events, but for those of the calls that work on one. -/
theorem Call.step_apart {choice : Choice} {call : Call} (hthread : call.thread? = none)
    (hsemaphore : call.semaphore? = none) (hevents : call.events? = none)
    (hdestroy : ∀ o unwinding, call ≠ destroy o unwinding)
    (hgate : ∀ o, call ≠ once o .complete) : (call.step t choice s).Keeps s.Apart := by
  cases call with
  | lock l p => exact p.step_apart.within fun _ _ hs => hs
  | unlock l p => exact p.step_apart.within fun _ _ hs => hs
  | scope l p => exact p.step_apart.within fun _ _ hs => hs
  | unlocked l p => exact p.step_apart.within fun _ _ hs => hs
  | wakeup c event p => exact p.step_apart.within fun _ _ hs => hs
  | wait c l timeout p => exact p.step_apart.within fun _ _ hs => hs
  | waitWhile c l timeout p => exact p.step_apart.within fun _ _ hs => hs
  | once o p =>
    have hp : p ≠ .complete := fun hp => hgate o (hp ▸ rfl)
    exact (OncePhase.step_apart hp).within fun _ _ hs => hs
  | destroy object unwinding => exact absurd rfl (hdestroy object unwinding)
  | initMutex l =>
    simp only [step, single, initMutexStep, Store.violate]
    split <;> exact .of_same
  | initCond c backend =>
    simp only [step, single, initCondStep, Store.violate]
    split <;> exact .of_same
  | install id =>
    simp only [step, single, installStep, Store.violate]
    split <;> exact .of_same
  | currentId => exact .of_same
  | setName name =>
    have hendings := s.nameThread_endings t name
    obtain ⟨log, hreport⟩ := s.exists_reportName_eq name
    simp only [step, Store.nameThread, hreport] at hendings ⊢
    exact .of_same (.of_same (.of_same rfl rfl rfl rfl rfl hendings))
  | configure | start | join | detach => cases hthread
  | acquire | tryAcquire | release => cases hsemaphore
  | setEvent | resetEvent | listen => cases hevents

-- a wakeup of what was never initialized fails, and sets no event
example : ((Call.waking 0 .one).step 0 ⟨0, false⟩ .initial).Keeps
    (fun s' => (s'.events.get 0).flags = .clear) := by
  decide +kernel

/-- A call that works on no semaphore and on no wake events leaves them all alone. -/
theorem Call.step_outside {choice : Choice} {call : Call} (hsemaphore : call.semaphore? = none)
    (hevents : call.events? = none) : (call.step t choice s).Keeps fun s' =>
      s'.semaphores = s.semaphores ∧ s'.events = s.events := by
  -- the completion of a gate is left out by the lemma about the other calls
  by_cases hgate : ∃ o, call = .once o .complete
  · obtain ⟨o, rfl⟩ := hgate
    exact ⟨rfl, rfl⟩
  · have hgate' (o : OnceRef) : call ≠ .once o .complete := fun heq => hgate ⟨o, heq⟩
    cases call with
    | configure r setting =>
      obtain ⟨log, hstore⟩ := s.exists_configureThread_eq r setting
      simp only [step, single, configureStep, hstore]
      exact ⟨rfl, rfl⟩
    | start r p =>
      cases p <;> simp only [step, lift, StartPhase.step, Store.violate] <;> (repeat' split) <;>
        exact ⟨rfl, rfl⟩
    | join r p =>
      cases p <;> simp only [step, lift, JoinPhase.step, JoinPhase.finish, takeRunning,
        Store.violate] <;> (repeat' split) <;> first | exact trivial | exact ⟨rfl, rfl⟩
    | detach r =>
      simp only [step, single, detachStep, takeRunning, Store.violate]
      split <;> exact ⟨rfl, rfl⟩
    | acquire | tryAcquire | release => cases hsemaphore
    | setEvent | resetEvent | listen => cases hevents
    | destroy object unwinding =>
      exact (step_destroy object unwinding).imp fun _ ⟨_, _, _, _, hs⟩ => hs ▸ ⟨rfl, rfl⟩
    | _ =>
      exact (step_apart rfl rfl rfl (by simp) hgate').imp fun _ hs => ⟨hs.semaphores, hs.events⟩

/-- Semaphores change only in a call that works on one. -/
theorem Call.step_semaphores {choice : Choice} {call : Call} (h : call.semaphore? = none) :
    (call.step t choice s).Keeps (·.semaphores = s.semaphores) := by
  cases hevents : call.events? with
  | none => exact (step_outside h hevents).imp fun _ hs => hs.1
  | some e =>
    cases call with
    | setEvent e event p => cases p <;> exact rfl
    | resetEvent e event => exact rfl
    | listen e timeout p =>
      cases p <;> simp only [step, lift, ListenPhase.step, ListenPhase.look] <;>
        (repeat' split) <;> first | exact trivial | exact rfl
    | _ => cases hevents

/-- Wake events change only in a call that works on one. -/
theorem Call.step_events {choice : Choice} {call : Call} (h : call.events? = none) :
    (call.step t choice s).Keeps (·.events = s.events) := by
  cases hsemaphore : call.semaphore? with
  | none => exact (step_outside hsemaphore h).imp fun _ hs => hs.2
  | some r =>
    cases call with
    | acquire r p =>
      cases p <;> simp only [step, lift, AcquirePhase.step, AcquirePhase.attemptStep] <;>
        (repeat' split) <;> first | exact trivial | exact rfl
    | tryAcquire r =>
      simp only [step, single, tryAcquireStep]
      split <;> exact rfl
    | release r p =>
      cases p <;> simp only [step, lift, ReleasePhase.step, Store.violate] <;>
        (repeat' split) <;> exact rfl
    | _ => cases hsemaphore

-- setting an event takes no permit
example : ((Call.setting 0 .one).step 0 ⟨0, false⟩ .initial).Keeps
    (fun s' => (s'.semaphores.get 0).permits.available = 0) := by
  decide +kernel

/-- The calls that work on a semaphore or on wake events leave thread objects alone too. -/
theorem Call.step_settled {choice : Choice} {call : Call} (hthread : call.thread? = none)
    (hdestroy : ∀ o unwinding, call ≠ destroy o unwinding)
    (hgate : ∀ o, call ≠ once o .complete) : (call.step t choice s).Keeps s.Settled := by
  cases call with
  | acquire r p => exact p.step_settled.within fun _ _ hs => hs
  | release r p => exact p.step_settled.within fun _ _ hs => hs
  | setEvent e event p => exact p.step_settled.within fun _ _ hs => hs
  | listen e timeout p => exact p.step_settled.within fun _ _ hs => hs
  | tryAcquire r =>
    simp only [step, single, tryAcquireStep]
    split <;> exact .of_same
  | resetEvent e event => exact .of_same
  | configure | start | join | detach => cases hthread
  | _ => exact (step_apart rfl rfl rfl hdestroy hgate).imp fun _ hs => hs.toSettled

/-- Apart from destructions and the step that completes a gate, every step keeps gates and the users
of mutexes still. -/
theorem Call.step_still {choice : Choice} {call : Call}
    (hdestroy : ∀ o unwinding, call ≠ destroy o unwinding) (h : ∀ o, call ≠ once o .complete) :
    (call.step t choice s).Keeps s.Still := by
  cases call with
  | configure r setting =>
    obtain ⟨log, hstore⟩ := s.exists_configureThread_eq r setting
    simp only [step, single, configureStep, hstore]
    exact .of_same
  | start r p => exact p.step_still.within fun _ _ hs => hs
  | join r p => exact p.step_still.within fun _ _ hs => hs
  | detach r =>
    have done (s' : Store) (child : Tid) (hs : s.Still s') :
        (Progress.done ((s'.report (.detached (s'.threads.get r).id)).setThread r
          ((s'.threads.get r).released .detached)) () : Progress Call Unit).Keeps s.Still :=
      ⟨⟨hs.clock, hs.nextHandle, hs.nextThread, hs.monitors, hs.gates, hs.endings⟩, hs.onces,
        hs.lockUsers⟩
    exact (takeRunning_still done).within fun _ _ hs => hs
  | _ => exact (step_settled rfl hdestroy h).imp fun _ hs => hs.toStill

/-- Only the step that completes a gate changes run-once gates. -/
theorem Call.step_onces {choice : Choice} {call : Call} (h : ∀ o, call ≠ once o .complete) :
    (call.step t choice s).Keeps (·.onces = s.onces) := by
  by_cases hdestroy : ∃ o unwinding, call = destroy o unwinding
  · obtain ⟨o, unwinding, rfl⟩ := hdestroy
    exact (step_destroy o unwinding).imp fun _ ⟨_, _, _, _, hs⟩ => hs ▸ rfl
  · exact (step_still (fun o unwinding heq => hdestroy ⟨o, unwinding, heq⟩) h).imp
      fun _ hs => hs.onces

/-- Only a destruction changes how many monitors use a mutex. -/
theorem Call.step_lockUsers {choice : Choice} {call : Call}
    (h : ∀ o unwinding, call ≠ destroy o unwinding) :
    (call.step t choice s).Keeps (·.lockUsers = s.lockUsers) := by
  by_cases hgate : ∃ o, call = once o .complete
  · obtain ⟨o, rfl⟩ := hgate
    exact rfl
  · exact (step_still h fun o heq => hgate ⟨o, heq⟩).imp fun _ hs => hs.lockUsers

/-- No step of a call changes the parts of the store that belong to no call. -/
theorem Call.step_frame {choice : Choice} (call : Call) :
    (call.step t choice s).Keeps s.Frame := by
  by_cases hdestroy : ∃ o unwinding, call = destroy o unwinding
  · obtain ⟨o, unwinding, rfl⟩ := hdestroy
    refine (step_destroy o unwinding).imp ?_
    rintro _ ⟨log, locks, lockUsers, conds, rfl⟩
    exact ⟨rfl, rfl, Nat.le_refl _, rfl, fun _ => rfl, fun _ => .inl rfl⟩
  by_cases h : ∃ o, call = once o .complete
  · obtain ⟨o, rfl⟩ := h
    exact OncePhase.complete_frame (t := t)
  · exact (step_still (fun o unwinding heq => hdestroy ⟨o, unwinding, heq⟩)
      fun o heq => h ⟨o, heq⟩).imp fun _ hs => hs.toFrame

/-! ## Calls that leave mutexes and condition variables alone

The lemmas above say what the calls at mutexes and condition variables do not write. This one is the
converse: it is what the invariants of those two tables need of every other call. -/

/-- Whether a call works on neither a mutex nor a condition variable. -/
def Call.isAside : Call → Bool
  | acquire _ _ | tryAcquire _ | release _ _ | setEvent _ _ _ | resetEvent _ _ | listen _ _ _
  | configure _ _ | start _ _ | install _ | join _ _ | detach _ | currentId | setName _ => true
  | _ => false

/-- The calls that work on other objects leave every mutex and condition variable as it was. -/
theorem Call.step_aside {choice : Choice} {call : Call} (h : call.isAside = true) :
    (call.step t choice s).Keeps fun s' => s'.locks = s.locks ∧ s'.conds = s.conds := by
  have hpart {φ ρ : Type} {p : Progress φ ρ}
      (hp : p.Keeps fun s' => s'.locks = s.locks ∧ s'.conds = s.conds) (call : φ → Call)
      (reply : ρ → Reply) :
      (lift call reply p).Keeps fun s' => s'.locks = s.locks ∧ s'.conds = s.conds :=
    hp.within fun _ _ hs => hs
  -- the calls that work on neither a mutex nor a condition variable
  cases call <;> simp only [isAside, Bool.false_eq_true] at h
  case acquire r p =>
    refine hpart ?_ _ _
    cases p <;> simp only [AcquirePhase.step, AcquirePhase.attemptStep] <;> (repeat' split) <;>
      first | exact trivial | exact ⟨rfl, rfl⟩
  case release r p =>
    refine hpart ?_ _ _
    cases p <;> simp only [ReleasePhase.step, Store.violate] <;> (repeat' split) <;>
      exact ⟨rfl, rfl⟩
  case setEvent e event p => cases p <;> exact ⟨rfl, rfl⟩
  case listen e timeout p =>
    refine hpart ?_ _ _
    cases p <;> simp only [ListenPhase.step, ListenPhase.look] <;> (repeat' split) <;>
      first | exact trivial | exact ⟨rfl, rfl⟩
  case configure r setting =>
    obtain ⟨log, hstore⟩ := s.exists_configureThread_eq r setting
    simp only [step, single, configureStep, hstore]
    exact ⟨rfl, rfl⟩
  case start r p =>
    refine hpart ?_ _ _
    cases p <;> simp only [StartPhase.step, Store.violate] <;> (repeat' split) <;>
      exact ⟨rfl, rfl⟩
  case join r p =>
    refine hpart ?_ _ _
    cases p <;> simp only [JoinPhase.step, JoinPhase.finish, takeRunning, Store.violate] <;>
      (repeat' split) <;> first | exact trivial | exact ⟨rfl, rfl⟩
  case tryAcquire r =>
    simp only [step, single, tryAcquireStep]
    split <;> exact ⟨rfl, rfl⟩
  case resetEvent e event => exact ⟨rfl, rfl⟩
  case install id =>
    simp only [step, single, installStep, Store.violate]
    split <;> exact ⟨rfl, rfl⟩
  case detach r =>
    simp only [step, single, detachStep, takeRunning, Store.violate]
    split <;> exact ⟨rfl, rfl⟩
  case currentId => exact ⟨rfl, rfl⟩
  case setName name =>
    obtain ⟨log, hreport⟩ := s.exists_reportName_eq name
    simp only [step, Store.nameThread, hreport]
    exact ⟨rfl, rfl⟩

end Interlock
