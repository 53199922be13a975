import Interlock.Proofs.Condition.Place

/-!
# The platform's queue of waiters

Who is in the queue of a platform condition variable. A waiter stays in the queue while it sleeps,
and it is awake when it finds itself out of it, so what matters is who can put a thread in and who
can take it out.

A thread enters a queue only by a step of its own; everybody else can only take it out. This is
`Store.Admits`, proved of every step of a call (`Call.step_admits`): the four operations on a queue
keep a sublist of the waiters or add the thread that takes the step, and no other part of the code
writes a platform condition variable. `Machine.Change.queued` says the same of moves; it is what
keeps a woken thread woken until it takes a step itself.
-/

namespace Interlock

/-! ## Queues

The four things that happen to a queue are a notification of one waiter or of all, the removal of a
waiter whose time is up, and a thread that lines up. -/

/-- Thread `u` is in the queue of platform condition variable `c`. -/
def Store.Queued (s : Store) (c : CondRef) (u : Tid) : Prop :=
  ∃ q, s.conds.get c = .native q ∧ q.waiting u = true

/-- A step of thread `t` that puts nobody else into a queue. -/
def Store.Admits (t : Tid) (s s' : Store) : Prop :=
  ∀ c u, u ≠ t → s'.Queued c u → s.Queued c u

namespace NativeQueue

variable {q : NativeQueue} {t u : Tid} {l : LockRef}

/-- A thread waits if the queue has an entry for it. -/
theorem waiting_iff : q.waiting u = true ↔ ∃ k, (u, k) ∈ q.waiters := by
  simp only [waiting, List.any_eq_true, beq_iff_eq]
  constructor
  · rintro ⟨⟨v, k⟩, hmem, rfl⟩
    exact ⟨k, hmem⟩
  · rintro ⟨k, hmem⟩
    exact ⟨(u, k), hmem, rfl⟩

theorem waiting_of_sublist {q' : NativeQueue} (hsub : q'.waiters.Sublist q.waiters)
    (h : q'.waiting u = true) : q.waiting u = true := by
  obtain ⟨k, hmem⟩ := waiting_iff.1 h
  exact waiting_iff.2 ⟨k, hsub.subset hmem⟩

theorem waiting_of_notifyOne {pick : Nat} (h : (q.notifyOne pick).waiting u = true) :
    q.waiting u = true :=
  waiting_of_sublist (List.eraseIdx_sublist _ _) h

theorem waiting_of_notifyAll (h : q.notifyAll.waiting u = true) : q.waiting u = true := by
  cases h

theorem waiting_of_remove (h : (q.remove t).waiting u = true) : q.waiting u = true :=
  waiting_of_sublist List.filter_sublist h

/-- A thread that lines up lines up for itself. -/
theorem waiting_of_enqueue (hu : u ≠ t) (h : (q.enqueue t l).waiting u = true) :
    q.waiting u = true := by
  obtain ⟨k, hmem⟩ := waiting_iff.1 h
  simp only [enqueue, List.mem_append, List.mem_singleton, Prod.mk.injEq] at hmem
  rcases hmem with hmem | ⟨rfl, -⟩
  · exact waiting_iff.2 ⟨k, hmem⟩
  · exact absurd rfl hu

end NativeQueue

variable {t u : Tid} {s s' : Store} {c : CondRef} {choice : Choice}

namespace Store

theorem Queued.of_cond {d : CondRef} (h : s'.Queued d u) (hcond : s'.conds.get d = s.conds.get d) :
    s.Queued d u := by
  obtain ⟨q, hq, hu⟩ := h
  exact ⟨q, hcond ▸ hq, hu⟩

/-- A new condition variable has no waiters. -/
theorem not_queued_new {backend : Backend} (hcond : s.conds.get c = .new backend) :
    ¬ s.Queued c u := by
  rintro ⟨q, hq, hu⟩
  cases backend <;> cases hcond.symm.trans hq
  cases hu

theorem Admits.of_same (hconds : s'.conds = s.conds := by rfl) : s.Admits t s' :=
  fun d _ _ hqueued => hqueued.of_cond (by rw [hconds])

/-- A step that does something to one queue. -/
theorem Admits.of_native {q q' : NativeQueue} (hq : s.conds.get c = .native q)
    (hwaiting : ∀ u, u ≠ t → q'.waiting u = true → q.waiting u = true)
    (hconds : s'.conds = s.conds.set c (.native q') := by rfl) : s.Admits t s' := by
  rintro d u hu ⟨q'', hq'', hwaits⟩
  by_cases hd : d = c
  · subst hd
    rw [hconds, Table.get_set_self] at hq''
    cases hq''
    exact ⟨q, hq, hwaiting u hu hwaits⟩
  · rw [hconds, Table.get_set_of_ne _ _ hd] at hq''
    exact ⟨q'', hq'', hwaits⟩

/-- A step that writes a condition variable without waiters. -/
theorem Admits.of_empty {cond : Condition}
    (hcond : (∃ f, cond = .fallback f) ∨ ∃ backend, cond = .new backend)
    (hconds : s'.conds = s.conds.set c cond := by rfl) : s.Admits t s' := by
  rintro d u - hqueued
  by_cases hd : d = c
  · subst hd
    have hget : s'.conds.get d = cond := by rw [hconds, Table.get_set_self]
    rcases hcond with ⟨f, rfl⟩ | ⟨backend, rfl⟩
    · obtain ⟨q, hq, -⟩ := hqueued
      cases hget.symm.trans hq
    · exact absurd hqueued (not_queued_new hget)
  · exact hqueued.of_cond (by rw [hconds, Table.get_set_of_ne _ _ hd])

end Store

/-! ## Steps and moves

Part by part, as usual: either the part writes no condition variable, or it does one of the four
things to a queue, or what it writes has no queue at all. -/

/-- A wakeup takes waiters out. -/
theorem WakeupPhase.step_admits {event : WakeEvent} (p : WakeupPhase) :
    (p.step c event choice s).Keeps (s.Admits t) := by
  cases p with
  | notify =>
    simp only [step, Store.withNative]
    split
    · split
      · exact .of_native ‹_› fun _ _ => NativeQueue.waiting_of_notifyOne
      · exact .of_native ‹_› fun _ _ => NativeQueue.waiting_of_notifyAll
    · trivial
  | entry =>
    simp only [step, Store.violate]
    split <;> exact .of_same
  | _ =>
    simp only [step, Store.violate, Store.withFallback]
    (repeat' split) <;> first
      | trivial
      | exact .of_same
      | exact .of_empty (.inl ⟨_, rfl⟩)

/-- A native wait puts its own thread in, and takes it out when its time is up. -/
theorem NativeWaitPhase.step_admits {l : LockRef} {timeout : Option Duration}
    (p : NativeWaitPhase) : (p.step t c l timeout s).Keeps (s.Admits t) := by
  cases p with
  | enqueue me =>
    simp only [step, Store.withNative]
    split
    · apply Progress.Meets.withLock
      intro k _
      split
      · exact .of_native ‹_› fun _ => NativeQueue.waiting_of_enqueue
      · exact .of_same
    · trivial
  | queued me deadline =>
    simp only [step, Store.withNative]
    split
    · split
      · exact .of_same
      · split
        · exact .of_native ‹_› fun _ _ => NativeQueue.waiting_of_remove
        · trivial
    · trivial
  | _ =>
    -- the other steps write no condition variable
    simp only [step, Store.violate, Store.withLock]
    (repeat' split) <;> first | trivial | exact .of_same

/-- A portable wait works on no queue. -/
theorem FallbackWaitPhase.step_admits {l : LockRef} {timeout : Option Duration}
    (p : FallbackWaitPhase) : (p.step t c l timeout s).Keeps (s.Admits t) := by
  cases p with
  | unlocking p => exact (p.step_conds.imp fun _ hs => .of_same hs).within fun _ _ hs => hs
  | locking p w => exact (p.step_conds.imp fun _ hs => .of_same hs).within fun _ _ hs => hs
  | _ =>
    simp only [step, Store.violate, Store.withFallback, afterDeparture]
    (repeat' split) <;> first
      | trivial
      | exact .of_same
      | exact .of_empty (.inl ⟨_, rfl⟩)

/-- A wait does what its backend does. -/
theorem WaitPhase.step_admits {l : LockRef} {timeout : Option Duration} (p : WaitPhase) :
    (p.step t c l timeout s).Keeps (s.Admits t) := by
  cases p with
  | native p => exact p.step_admits.within fun _ _ hs => hs
  | fallback p => exact p.step_admits.within fun _ _ hs => hs
  | _ =>
    simp only [step, Store.violate, Store.withLock]
    (repeat' split) <;> first | trivial | exact .of_same

/-- A loop does what its waits do. -/
theorem WaitWhilePhase.step_admits {l : LockRef} {timeout : Option Duration}
    (p : WaitWhilePhase) : (p.step t c l timeout s).Keeps (s.Admits t) := by
  cases p with
  | waiting start rest p => exact p.step_admits.within fun _ _ hs => hs
  | _ =>
    simp only [step]
    (repeat' split) <;> first | trivial | exact .of_same

/-- A step of any call puts at most its own thread into a queue. -/
theorem Call.step_admits (call : Call) : (call.step t choice s).Keeps (s.Admits t) := by
  cases call with
  | wakeup d event p => exact p.step_admits.within fun _ _ hs => hs
  | wait d l timeout p => exact p.step_admits.within fun _ _ hs => hs
  | waitWhile d l timeout p => exact p.step_admits.within fun _ _ hs => hs
  | initCond d backend =>
    simp only [step, single, initCondStep, Store.violate]
    split
    · exact .of_same
    · exact .of_empty (.inr ⟨backend, rfl⟩)
  | destroy o unwinding =>
    -- a destruction leaves a queue alone or takes it away
    have hadmits : s.Admits t (s.destroy o unwinding).1 := by
      intro d u _ hqueued
      rcases s.destroy_cond o unwinding d with hcond | ⟨hcond, -⟩
      · exact hqueued.of_cond hcond
      · obtain ⟨q, hq, -⟩ := hqueued
        cases hcond.symm.trans hq
    exact (ends_destroy t choice s o unwinding).meets (fun _ => hadmits) hadmits
  | _ => exact (step_conds (by simp [objects]) (by simp)).imp fun _ hs => .of_same hs

namespace Machine

variable {m m' : Machine} {move : Move}

/-- A thread that does not take a step does not enter a queue. -/
theorem Change.queued (hchange : m.Change move m') (hmove : ∀ choice, move ≠ .advance u choice)
    (h : m'.store.Queued c u) : m.store.Queued c u := by
  refine hchange.keeps (P := fun s' => s'.Queued c u → m.store.Queued c u)
    (fun s' hgrows h => ?_) (fun t choice call hadvance _ _ => ?_) h
  · rcases hgrows.conds c with hcond | ⟨-, -, hraw | ⟨backend, hnew⟩⟩
    · exact h.of_cond hcond
    · obtain ⟨q, hq, -⟩ := h
      cases hraw.symm.trans hq
    · exact absurd h (Store.not_queued_new hnew)
  · have hu : u ≠ t := by
      rintro rfl
      exact hmove choice hadvance
    exact call.step_admits.imp fun s' hadmits => hadmits c u hu

end Machine

end Interlock
