import Interlock.Proofs.Exclusion
import Interlock.Proofs.Agreement.Sleeper
import Interlock.Proofs.Thread.Objects

/-!
# Broken contracts

A call that breaks a contract panics before it has done anything. Some calls look at several things
one after the other, so that other threads move in between, and some write what they have read; but
none leaves anything behind, except that its thread may have been given the identity that it did
not have.

  * `Store.Untouched`: what may have changed in a step of a call that is refused;
  * `Run.Breaks`: the ways to break a contract. What counts is the state in which the call takes
    its first step, or, for a loop around waits, each of its waits;
  * `Run.Rejects`: the steps of such a call, none of which is blocked or runs code of the client's,
    and the last of which panics;
  * `Run.Breaks.rejects`: every broken contract is rejected.
-/

namespace Interlock

/-! ## What a refused call leaves

A refused call may take several steps before it panics, with the steps of others in between, so "it
changes nothing" is said of each of its own steps. A step either prepares the next check
(`Machine.Prepares`) or is the panic (`Machine.Panics`). -/

/-- The store is as it was, but for these new records of the log and for the identity of thread `t`,
which may have been drawn. -/
structure Store.Untouched (s : Store) (t : Tid) (records : List Record) (s' : Store) : Prop where
  clock : s'.clock = s.clock
  nextHandle : s'.nextHandle = s.nextHandle
  nextThread : s'.nextThread = s.nextThread
  osThreads : s'.osThreads = s.osThreads
  locks : s'.locks = s.locks
  lockUsers : s'.lockUsers = s.lockUsers
  conds : s'.conds = s.conds
  onces : s'.onces = s.onces
  monitors : s'.monitors = s.monitors
  semaphores : s'.semaphores = s.semaphores
  events : s'.events = s.events
  threads : ∀ o, s'.threads.get o = s.threads.get o
  ids : s'.ids = s.ids ∨ s'.ids = (s.ids.current t).1
  log : s'.log = records ++ s.log

namespace Store

variable {s : Store} {t : Tid}

/-- It is enough to give the new records of the log and the identities. -/
theorem Untouched.of_same {s' : Store} {records : List Record}
    (hids : s'.ids = s.ids ∨ s'.ids = (s.ids.current t).1)
    (h : s' = { s with ids := s'.ids, log := records ++ s.log }) : s.Untouched t records s' := by
  rw [h]
  exact ⟨rfl, rfl, rfl, rfl, rfl, rfl, rfl, rfl, rfl, rfl, rfl, fun _ => rfl, hids, rfl⟩

theorem untouched_refl : s.Untouched t [] s := .of_same (.inl rfl) rfl

theorem untouched_report (record : Record) : s.Untouched t [record] (s.report record) :=
  .of_same (.inl rfl) rfl

theorem untouched_current : s.Untouched t [] (s.currentId t).1 := .of_same (.inr rfl) rfl

end Store

namespace Machine

variable {m : Machine} {t : Tid} {choice : Choice} {call call' : Call} {outer : List Call}
  {s' : Store} {v : Violation}

/-- A step that logs a violation and panics with it, and that changes nothing else. Its call is
over. -/
structure Panics (m : Machine) (t : Tid) (choice : Choice) (v : Violation) : Prop where
  notice : (m.advance t choice).2 = .panicked (.violation v)
  untouched : m.store.Untouched t [.violation v] (m.advance t choice).1.store
  /-- The record is an error with the message of the panic. -/
  message : (Record.violation v).line = "error: " ++ (Panic.violation v).message
  ends : (m.advance t choice).1.calls = m.calls.set t (m.calls.get t).tail

/-- A step in which a call goes on and changes nothing. -/
structure Prepares (m : Machine) (t : Tid) (choice : Choice) : Prop where
  notice : (m.advance t choice).2 = .working
  untouched : m.store.Untouched t [] (m.advance t choice).1.store

/-- A step of the innermost call that fails is a panic of its thread. -/
theorem panics_of_step (hget : m.calls.get t = call :: outer)
    (hstep : call.step t choice m.store = .fault s' (.violation v))
    (hs : m.store.Untouched t [.violation v] s') : m.Panics t choice v := by
  have hadvance : m.advance t choice = (⟨s', m.calls.set t outer⟩, .panicked (.violation v)) := by
    simp only [advance, hget, hstep]
  constructor
  · rw [hadvance]
  · rw [hadvance]
    exact hs
  · rfl
  · rw [hadvance, hget]
    rfl

/-- A step of the innermost call that goes on prepares the next one. -/
theorem prepares_of_step (hsound : m.Sound) (hget : m.calls.get t = call :: outer)
    (hstep : call.step t choice m.store = .next s' call') (hbody : call'.atBody = false)
    (hs : m.store.Untouched t [] s') : m.Prepares t choice := by
  constructor
  · rw [(advance_next hsound hget hstep).1, if_neg (by simp [hbody])]
  · rw [(hsound.call?_of_next hget hstep).2]
    exact hs

end Machine

/-- A wait is in the code of its mutex that its inner phase is in. -/
theorem Call.Waiter.part {c : CondRef} {l : LockRef} {timeout : Option Duration}
    {wrap : WaitPhase → Call} {finish : Store → Bool → Progress Call Reply}
    (hw : Call.Waiter c l timeout wrap finish) (s : Store) (p : WaitPhase) :
    (wrap p).part l s = p.part c timeout := by
  cases hw <;> exact if_pos rfl

namespace Run

variable {r : Run} {t : Tid} {i n : Nat} {l : LockRef} {c : CondRef} {choice : Choice}
  {notice : Notice} {call : Call} {why : ThreadId → Violation} {v : Violation}

/-! ## Broken contracts

The contracts are those that the calls check: an object is initialized, or not yet; a mutex is held
by the caller, or is not; a thread object is running, or is not; a semaphore has room. Each
constructor of `Breaks` is a call at the step that begins its checks, the state that breaks the
contract, and the violation that this is. -/

/-- The call that thread `t` is in breaks a contract with the step that it takes in move `i`. The
violation may name the identity of its thread. -/
inductive Breaks (r : Run) (t : Tid) (i : Nat) : (ThreadId → Violation) → Prop
  | initMutex {l : LockRef} (hcall : (r.state i).call? t = some (.initMutex l))
    (h : (r.state i).store.lock l ≠ none) : Breaks r t i fun _ => .mutexInitializedTwice
  | initCond {c : CondRef} {backend : Backend}
    (hcall : (r.state i).call? t = some (.initCond c backend))
    (h : ((r.state i).store.conds.get c).isInitialized = true) :
    Breaks r t i fun _ => .conditionInitializedTwice
  /-- A lock, a guard, a gate or the end of an unlocked section. -/
  | lockRaw {l : LockRef} (hpart : (r.state i).part l t = .locking .entry none)
    (h : (r.state i).store.lock l = none) : Breaks r t i fun _ => .mutexUninitialized .lock
  | relock {l : LockRef} (hpart : (r.state i).part l t = .locking .entry none)
    (h : r.Has l t i) : Breaks r t i .relocked
  /-- An unlock, an unlocked section or the end of a guard or of a gate. -/
  | unlockRaw {l : LockRef} (hpart : (r.state i).part l t = .unlocking .entry none)
    (h : (r.state i).store.lock l = none) : Breaks r t i fun _ => .mutexUninitialized .unlock
  | unlockForeign {l : LockRef} (hpart : (r.state i).part l t = .unlocking .entry none)
    (hinit : (r.state i).store.lock l ≠ none) (h : ¬ r.Has l t i) :
    Breaks r t i (.notHolder .unlock)
  | wakeRaw {c : CondRef} {event : WakeEvent}
    (hcall : (r.state i).call? t = some (.wakeup c event .entry))
    (h : (r.state i).store.conds.get c = .raw) :
    Breaks r t i fun _ => .conditionUninitialized (.ofEvent event)
  | waitRaw {c : CondRef} {l : LockRef} {timeout : Option Duration} {wrap : WaitPhase → Call}
    {finish : Store → Bool → Progress Call Reply} (hw : Call.Waiter c l timeout wrap finish)
    (hcall : (r.state i).call? t = some (wrap .entry))
    (h : (r.state i).store.conds.get c = .raw) :
    Breaks r t i fun _ => .conditionUninitialized .waitOn
  /-- The mutex need not be initialized. -/
  | waitForeign {c : CondRef} {l : LockRef} {timeout : Option Duration} {wrap : WaitPhase → Call}
    {finish : Store → Bool → Progress Call Reply} (hw : Call.Waiter c l timeout wrap finish)
    (hcall : (r.state i).call? t = some (wrap .entry))
    (hinit : ((r.state i).store.conds.get c).isInitialized = true) (h : ¬ r.Has l t i) :
    Breaks r t i fun _ => .waitWithoutMutex
  | start {o : ThreadRef} (hcall : (r.state i).call? t = some (.start o .entry))
    (h : ((r.state i).store.threads.get o).running = true) :
    Breaks r t i fun _ => .startedRunning ((r.state i).store.threads.get o).id
  /-- The object is not running, or its thread is being joined already. -/
  | join {o : ThreadRef} (hcall : (r.state i).call? t = some (.join o .entry))
    (h : ((r.state i).store.threads.get o).isHeld = false) :
    Breaks r t i fun _ => .notRunning .join ((r.state i).store.threads.get o).state
  | detach {o : ThreadRef} (hcall : (r.state i).call? t = some (.detach o))
    (h : ((r.state i).store.threads.get o).isHeld = false) :
    Breaks r t i fun _ => .notRunning .detach ((r.state i).store.threads.get o).state
  | release {s : SemaphoreRef} (hcall : (r.state i).call? t = some (.release s .put))
    (h : ((r.state i).store.semaphores.get s).permits.available =
      ((r.state i).store.semaphores.get s).permits.max) :
    Breaks r t i fun _ => .overRelease ((r.state i).store.semaphores.get s).permits.max

/-- From move `i` on, the steps of thread `t` change nothing until one of them panics. -/
inductive Rejects (r : Run) (t : Tid) (why : ThreadId → Violation) : Nat → Prop
  | fails {i : Nat}
    (h : ∀ choice, (r.state i).Panics t choice (why ((r.state i).store.ids.own.get t))) :
    Rejects r t why i
  | works {i : Nat} (h : ∀ choice, (r.state i).Prepares t choice)
    (hnext : ∀ n notice, r.NextStep t (i + 1) n notice → Rejects r t why n) : Rejects r t why i

/-- A first step that fails is all there is to it. -/
theorem rejects_of_fault (hcall : (r.state i).call? t = some call)
    (hstep : ∀ choice, ∃ s', call.step t choice (r.state i).store = .fault s' (.violation v) ∧
      (r.state i).store.Untouched t [.violation v] s') : r.Rejects t (fun _ => v) i := by
  obtain ⟨outer, hget⟩ := List.head?_eq_some_iff.1 hcall
  refine .fails fun choice => ?_
  obtain ⟨s', hfault, hs⟩ := hstep choice
  exact Machine.panics_of_step hget hfault hs

/-! ### Mutexes

A contract about holding a mutex is checked two steps after the call has begun. That it is still
broken there is `At.until`: nobody can give a mutex to a thread that does not ask for it, or take
away one that it has. -/

/-- A check that fails is a rejection by itself. -/
theorem Fails.rejects (h : r.Fails t i none (why ((r.state i).store.ids.own.get t))) :
    r.Rejects t why i := by
  refine .fails fun choice => ?_
  obtain ⟨call, outer, hget, hstep⟩ := h choice
  exact Machine.panics_of_step hget hstep (Store.untouched_report _)

/-- Locking a mutex that is not initialized panics in its first step. -/
theorem lock_raw_rejected (hpart : (r.state i).part l t = .locking .entry none)
    (h : (r.state i).store.lock l = none) :
    r.Rejects t (fun _ => .mutexUninitialized .lock) i := by
  obtain ⟨call, outer, hget, hcode⟩ := Machine.call?_of_part (by rw [hpart]; simp)
  refine rejects_of_fault (Machine.call?_of_get hget) fun choice => ?_
  obtain ⟨wrap, hcarries, -⟩ := Call.step_locking t choice (hcode.symm.trans hpart)
  simp only [LockPhase.step, h, Option.isNone_none, if_true, Store.violate] at hcarries
  exact ⟨_, hcarries.fault, Store.untouched_report _⟩

/-- So does unlocking one. -/
theorem unlock_raw_rejected (hpart : (r.state i).part l t = .unlocking .entry none)
    (h : (r.state i).store.lock l = none) :
    r.Rejects t (fun _ => .mutexUninitialized .unlock) i := by
  obtain ⟨call, outer, hget, hcode⟩ := Machine.call?_of_part (by rw [hpart]; simp)
  refine rejects_of_fault (Machine.call?_of_get hget) fun choice => ?_
  obtain ⟨wrap, hcarries, -⟩ := Call.step_unlocking t choice (hcode.symm.trans hpart)
  simp only [UnlockPhase.step, h, Option.isNone_none, if_true, Store.violate] at hcarries
  exact ⟨_, hcarries.fault, Store.untouched_report _⟩

/-- Locking a mutex that the thread has panics in its second step. -/
theorem At.relock_rejected (h : r.At l t (.locking .entry none) True i)
    (hmove : r.move i = .advance t choice) : r.Rejects t .relocked i := by
  refine .works (fun choice => ?_) fun n notice hnext => ?_
  · obtain ⟨call, outer, hget, hcode⟩ := h.exists_call (by simp)
    obtain ⟨wrap, hcarries, hwrap⟩ := Call.step_locking t choice hcode
    simp only [LockPhase.step, Option.isNone_iff_eq_none, h.initialized, if_false] at hcarries
    have hstep := hcarries.next
    have hcode' := hwrap _ (LockPhase.check ((r.state i).store.currentId t).2)
      (Machine.frame_of_next hstep)
    exact Machine.prepares_of_step (r.state_sound i) hget hstep
      (Call.not_body_of_part (by rw [hcode']; simp)) Store.untouched_current
  · obtain ⟨-, me, hcheck⟩ := h.lock_entry hmove
    exact (hcheck.until (by simp) hnext).lock_check.rejects

/-- Unlocking a mutex that the thread does not have panics in its second step. -/
theorem At.unlock_rejected (h : r.At l t (.unlocking .entry none) False i)
    (hmove : r.move i = .advance t choice) : r.Rejects t (.notHolder .unlock) i := by
  refine .works (fun choice => ?_) fun n notice hnext => ?_
  · obtain ⟨call, outer, hget, hcode⟩ := h.exists_call (by simp)
    obtain ⟨wrap, hcarries, hwrap⟩ := Call.step_unlocking t choice hcode
    simp only [UnlockPhase.step, Option.isNone_iff_eq_none, h.initialized, if_false] at hcarries
    have hstep := hcarries.next
    have hcode' := hwrap _ (UnlockPhase.check ((r.state i).store.currentId t).2)
      (Machine.frame_of_next hstep)
    exact Machine.prepares_of_step (r.state_sound i) hget hstep
      (Call.not_body_of_part (by rw [hcode']; simp)) Store.untouched_current
  · obtain ⟨-, me, hcheck⟩ := h.unlock_entry hmove
    exact (hcheck.until (by simp) hnext).unlock_check.rejects

/-! ### Waits

A wait looks at three things in turn: the condition variable, the mutex, the owner word. The
rejections are proved from the last check to the first, since each of them goes on to the next. A
wait is written as a call with its inner phase (`Call.Waiter`), which covers a bare wait and the
waits of a loop alike. -/

/-- A thread gets a mutex only by taking it. -/
theorem not_has_succ (h : ¬ r.Has l t i) (htakes : ¬ r.Takes l t i) : ¬ r.Has l t (i + 1) := by
  rw [← holder_iff_has] at h ⊢
  intro hholder
  refine h (holder_of_succ ?_ hholder htakes)
  intro hnone
  simp [Store.holder, hnone] at hholder

/-- A thread that does not have the mutex does not get it until it takes a step. -/
theorem NextStep.not_has (hnext : r.NextStep t i n notice) (h : ¬ r.Has l t i) :
    ¬ r.Has l t n := by
  refine hnext.keeps (P := fun k => ¬ r.Has l t k) h fun k hmove hk => not_has_succ hk ?_
  rintro ⟨choice, heq, -⟩
  exact hmove choice heq

/-- A call that runs none of its client's code stays as it is until its thread takes a step. -/
theorem NextStep.call? (hnext : r.NextStep t i n notice) (hcall : (r.state i).call? t = some call)
    (hbody : call.atBody = false) : (r.state n).call? t = some call := by
  refine hnext.keeps (P := fun k => (r.state k).call? t = some call) hcall fun k hmove hk => ?_
  obtain ⟨outer, hget⟩ := List.head?_eq_some_iff.1 hk
  exact Machine.call?_of_get ((r.state_change k).calls_kept (r.state_sound k) hget hbody hmove)

variable {timeout : Option Duration} {wrap : WaitPhase → Call}
  {finish : Store → Bool → Progress Call Reply} {p p' : WaitPhase} {me : ThreadId} {s' : Store}

/-- A wait goes on to its next check. -/
theorem call?_of_wait (hw : Call.Waiter c l timeout wrap finish)
    (hmove : r.move i = .advance t choice) (hcall : (r.state i).call? t = some (wrap p))
    (hstep : p.step t c l timeout (r.state i).store = .next s' p') :
    (r.state (i + 1)).call? t = some (wrap p') := by
  obtain ⟨outer, hget⟩ := List.head?_eq_some_iff.1 hcall
  have hnext : (wrap p).step t choice (r.state i).store = .next s' (wrap p') := by
    rw [hw.step, hstep]
    rfl
  rw [state_succ, hmove]
  exact ((r.state_sound i).call?_of_next hget hnext).1

/-- A check of a wait that fails is a rejection. -/
theorem wait_fails (hw : Call.Waiter c l timeout wrap finish)
    (hcall : (r.state i).call? t = some (wrap p))
    (hstep : p.step t c l timeout (r.state i).store = (r.state i).store.violate v) :
    r.Rejects t (fun _ => v) i := by
  refine rejects_of_fault hcall fun choice => ⟨_, ?_, Store.untouched_report _⟩
  rw [hw.step, hstep]
  rfl

/-- A check of a wait that succeeds is followed by the next. -/
theorem wait_prepares (hw : Call.Waiter c l timeout wrap finish)
    (hcall : (r.state i).call? t = some (wrap p))
    (hstep : p.step t c l timeout (r.state i).store = .next s' p')
    (hs : (r.state i).store.Untouched t [] s') (choice : Choice) :
    (r.state i).Prepares t choice := by
  obtain ⟨outer, hget⟩ := List.head?_eq_some_iff.1 hcall
  refine Machine.prepares_of_step (r.state_sound i) hget ?_ (hw.atBody p') hs
  rw [hw.step, hstep]
  rfl

/-- A thread that is in a wait, but not in code of the mutex, does not get the mutex. -/
theorem not_has_of_wait (hw : Call.Waiter c l timeout wrap finish)
    (hcall : (r.state i).call? t = some (wrap p)) (hp : p.part c timeout = .aside)
    (h : ¬ r.Has l t i) : ¬ r.Has l t (i + 1) := by
  refine not_has_succ h ?_
  rintro ⟨choice, -, -, hdeed⟩
  rw [Machine.deed, Machine.part, Machine.see_of_call? hcall, hw.part, hp] at hdeed
  cases hdeed

/-- The last check compares the owner word. -/
theorem wait_check_rejected (hw : Call.Waiter c l timeout wrap finish)
    (hcall : (r.state i).call? t = some (wrap (.check me)))
    (hinit : (r.state i).store.lock l ≠ none) (h : ¬ r.Has l t i) :
    r.Rejects t (fun _ => .waitWithoutMutex) i := by
  obtain ⟨k, hk⟩ := Option.ne_none_iff_exists'.1 hinit
  have hpart : (r.state i).part l t = .checking me :=
    (Machine.see_of_call? hcall).trans (hw.part _ _)
  have howner : k.owner ≠ me := mt (check_iff hk (by rw [hpart]; rfl)).2.2.1 h
  refine wait_fails hw hcall ?_
  simp [WaitPhase.step, Store.withLock, hk, howner]

/-- Before that, a wait looks whether the mutex is initialized. -/
theorem wait_identify_rejected (hw : Call.Waiter c l timeout wrap finish)
    (hmove : r.move i = .advance t choice)
    (hcall : (r.state i).call? t = some (wrap .identify)) (h : ¬ r.Has l t i) :
    r.Rejects t (fun _ => .waitWithoutMutex) i := by
  -- a mutex that is not initialized is refused at once, any other by its owner word
  by_cases hinit : (r.state i).store.lock l = none
  · refine wait_fails hw hcall ?_
    simp [WaitPhase.step, hinit]
  · have hstep : WaitPhase.identify.step t c l timeout (r.state i).store =
        .next ((r.state i).store.currentId t).1 (.check ((r.state i).store.currentId t).2) := by
      simp [WaitPhase.step, hinit]
    refine .works (wait_prepares hw hcall hstep Store.untouched_current) fun n notice hnext => ?_
    have hcall' := call?_of_wait hw hmove hcall hstep
    have hmem : .mutex l ∈ (wrap .identify).objects (r.state i).store := by
      cases hw <;> simp [Call.objects]
    have hat : r.At l t (.checking ((r.state i).store.currentId t).2) False (i + 1) :=
      ⟨(Machine.see_of_call? hcall').trans (hw.part _ _),
        lock_stays_of_mem (Machine.mem_of_call? hcall) hmem hinit,
        iff_false_intro (not_has_of_wait hw hcall rfl h)⟩
    have hchecking := hat.until (by simp) hnext
    exact wait_check_rejected hw (hnext.call? hcall' (hw.atBody _)) hchecking.initialized
      fun hhas => hchecking.has.1 hhas

/-- A wait with a mutex that the thread does not have is rejected at one of the three checks. -/
theorem wait_rejected (hw : Call.Waiter c l timeout wrap finish)
    (hmove : r.move i = .advance t choice)
    (hcall : (r.state i).call? t = some (wrap .entry))
    (hinit : ((r.state i).store.conds.get c).isInitialized = true) (h : ¬ r.Has l t i) :
    r.Rejects t (fun _ => .waitWithoutMutex) i := by
  have hstep : WaitPhase.entry.step t c l timeout (r.state i).store =
      .next (r.state i).store .identify := by
    simp [WaitPhase.step, hinit]
  refine .works (wait_prepares hw hcall hstep Store.untouched_refl) fun n notice hnext => ?_
  obtain ⟨choice', hmove', -⟩ := hnext.step
  exact wait_identify_rejected hw hmove'
    (hnext.call? (call?_of_wait hw hmove hcall hstep) (hw.atBody _))
    (hnext.not_has (not_has_of_wait hw hcall rfl h))

/-! ### Thread objects

A call on a thread object borrows it exclusively, so nobody changes the object meanwhile, and the
first step of the call finds what is wrong with it. -/

/-- Where there is no handle, taking it changes nothing. -/
theorem takeRunning_refused {φ ρ : Type} {s : Store} {o : ThreadRef} {op : ThreadOp}
    {step : Store → Tid → Progress φ ρ} (h : (s.threads.get o).isHeld = false)
    (hnone : (s.threads.get o).handle = none) : ∃ s',
    takeRunning o op s step = .fault s' (.violation (.notRunning op (s.threads.get o).state)) ∧
      s.Untouched t [.violation (.notRunning op (s.threads.get o).state)] s' := by
  rcases takeRunning_cases s o op step with
    ⟨child, hheld, -⟩ | ⟨-, heq⟩
  · cases h.symm.trans hheld
  refine ⟨_, heq, rfl, rfl, rfl, rfl, rfl, rfl, rfl, rfl, rfl, rfl, rfl, ?_, .inl rfl, rfl⟩
  intro o'
  simp only [Store.report, Store.setThread, Table.get_set]
  split
  · subst o'
    rw [← hnone]
  · rfl

/-- An object that holds no thread has no handle left to join by. -/
theorem handle_of_not_held (hborrows : r.Borrows) {o : ThreadRef}
    (h : ((r.state i).store.threads.get o).isHeld = false) :
    ((r.state i).store.threads.get o).handle = none := by
  rw [Thread.isHeld, Bool.and_eq_false_iff, Option.isSome_eq_false_iff,
    Option.isNone_iff_eq_none] at h
  exact h.elim ((hborrows.state i).idle o) id

/-! ### Every broken contract

The constructors of `Breaks` one by one; what differs between them has been proved above. -/

/-- Every broken contract is rejected, with the violation that it is. -/
theorem Breaks.rejects (h : r.Breaks t i why) (hborrows : r.Borrows)
    (hmove : r.move i = .advance t choice) : r.Rejects t why i := by
  cases h with
  | initMutex hcall h =>
    refine rejects_of_fault hcall fun choice => ⟨_, ?_, Store.untouched_report _⟩
    simp [Call.step, Call.single, initMutexStep, Option.isSome_iff_ne_none, h, Store.violate,
      Progress.within]
  | initCond hcall h =>
    refine rejects_of_fault hcall fun choice => ⟨_, ?_, Store.untouched_report _⟩
    simp [Call.step, Call.single, initCondStep, h, Store.violate, Progress.within]
  | lockRaw hpart h => exact lock_raw_rejected hpart h
  | unlockRaw hpart h => exact unlock_raw_rejected hpart h
  | relock hpart h =>
    -- a mutex that is held has been initialized
    obtain ⟨j, hsince⟩ := h
    have hat : r.At _ t (.locking .entry none) True i :=
      ⟨hpart, hsince.initialized i hsince.before (Nat.le_refl i), iff_true_intro ⟨j, hsince⟩⟩
    exact hat.relock_rejected hmove
  | unlockForeign hpart hinit h =>
    have hat : r.At _ t (.unlocking .entry none) False i := ⟨hpart, hinit, iff_false_intro h⟩
    exact hat.unlock_rejected hmove
  | wakeRaw hcall h =>
    refine rejects_of_fault hcall fun choice => ⟨_, ?_, Store.untouched_report _⟩
    simp [Call.step, Call.lift, WakeupPhase.step, h, Store.violate, Progress.within]
  | waitRaw hw hcall h =>
    refine wait_fails hw hcall ?_
    simp [WaitPhase.step, h, Condition.isInitialized, Condition.backend?]
  | waitForeign hw hcall hinit h => exact wait_rejected hw hmove hcall hinit h
  | start hcall h =>
    refine rejects_of_fault hcall fun choice => ⟨_, ?_, Store.untouched_report _⟩
    simp [Call.step, Call.lift, StartPhase.step, h, Store.violate, Progress.within]
  | join hcall h =>
    refine rejects_of_fault hcall fun choice => ?_
    obtain ⟨s', heq, hs⟩ := takeRunning_refused (t := t) h (handle_of_not_held hborrows h)
    refine ⟨s', ?_, hs⟩
    rw [Call.step, JoinPhase.step, heq]
    rfl
  | detach hcall h =>
    refine rejects_of_fault hcall fun choice => ?_
    obtain ⟨s', heq, hs⟩ := takeRunning_refused (t := t) h (handle_of_not_held hborrows h)
    refine ⟨s', ?_, hs⟩
    rw [Call.step, detachStep, heq]
    rfl
  | release hcall h =>
    refine rejects_of_fault hcall fun choice => ⟨_, ?_, Store.untouched_report _⟩
    simp [Call.step, Call.lift, ReleasePhase.step, Permits.put?, h, Store.violate, Progress.within]

/-- A loop around waits runs its condition at once and looks at nothing before. -/
theorem loop_begins {m : Machine} (hcall : m.call? t = some (.waitingWhile c l timeout))
    (choice : Choice) :
    (m.advance t choice).2 = .body ∧ (m.advance t choice).1.store = m.store := by
  obtain ⟨outer, hget⟩ := List.head?_eq_some_iff.1 hcall
  simp only [Machine.advance, hget, Call.waitingWhile, Call.step, Call.lift, WaitWhilePhase.step,
    Progress.within]
  exact ⟨rfl, rfl⟩

end Run

/-! ### Runs of a list of moves

That calls on one thread object exclude each other is part of what is assumed of a run. For a run
that is given as a list it is checked by computation. -/

/-- Whether a move begins no call on a thread object that another call is on. -/
def Machine.borrows? (m : Machine) : Move → Bool
  | .begin _ call =>
    call.thread?.all fun o =>
      (List.range m.store.nextThread).all fun u => (m.call? u).all (·.thread? ≠ some o)
  | _ => true

namespace Run

/-- A run of a list of moves borrows thread objects as it should, if each of its moves does. -/
theorem borrows_ofList {moves : List Move} (h : feasible .initial moves = true)
    (hborrows : along Machine.borrows? .initial moves = true) : (ofList moves h).Borrows := by
  intro i t call o hmove ho u call' hcall' ho'
  have hstep := along_extend (fun _ => rfl) hborrows i
  have hmove' : extend moves i = .begin t call := hmove
  rw [hmove'] at hstep
  simp only [Machine.borrows?, ho, Option.all_some, List.all_eq_true, List.mem_range] at hstep
  have hborn : u < ((ofList moves h).state i).store.nextThread := by
    apply Nat.lt_of_not_le
    intro hle
    rw [Machine.call?, ((ofList moves h).state_sound i).unborn u hle] at hcall'
    cases hcall'
  have hothers := hstep u hborn
  rw [show (Machine.after (extend moves) i).call? u = some call' from hcall'] at hothers
  simp [ho'] at hothers

end Run

end Interlock
