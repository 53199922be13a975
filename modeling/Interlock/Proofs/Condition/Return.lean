import Interlock.Proofs.Refusal
import Interlock.Proofs.Unwinding
import Interlock.Proofs.Condition.Sharing
import Interlock.Proofs.Sight

/-!
# A wait gives the mutex back

A thread that waits holds the mutex when it comes and when it goes. In between it gives the mutex up
once, and takes it again.

  * `Store.Upholds`: a condition variable that a call works on keeps its backend;
  * `Leave`: whether a waiter has given its mutex up and taken it again. Every step of a wait moves
    this on as the step treats the platform lock (`WaitPhase.step_leave`);
  * `Run.InWait`: a wait from its beginning on, and `Run.OnLeave`: what has become of the mutex
    since then;
  * `Run.GivesBack`, `Run.mutex_given_back`: how a wait treats the mutexes of its thread.

The two backends give the mutex up in different ways. The platform does so in one step with coming
into the queue; a portable wait runs the same code as any unlocking, with a check of the owner word
that could refuse it. `Leave` has the stages that both go through, so the induction over a run is
made once, and what differs is which step turns which stage.
-/

namespace Interlock

/-! ## Condition variables keep their backend

A wait asks its condition variable for the backend once, and runs on that to its end. It may, since
nothing changes the backend of a condition variable that is initialized and stays: only the
destructor does, and nobody destroys what a wait works on. -/

/-- Every initialized condition variable keeps its backend. -/
def Store.Upholds (s s' : Store) : Prop :=
  ∀ c, (s.conds.get c).isInitialized = true → (s'.conds.get c).backend? = (s.conds.get c).backend?

section

variable {t : Tid} {c : CondRef} {l : LockRef} {timeout : Option Duration} {choice : Choice}
  {s s' : Store}

theorem Store.Upholds.of_same (hconds : s'.conds = s.conds := by rfl) : s.Upholds s' :=
  fun d _ => by rw [hconds]

/-- A step that writes one, of the same backend. -/
theorem Store.Upholds.of_write {cond : Condition}
    (hcond : (s.conds.get c).isInitialized = true → cond.backend? = (s.conds.get c).backend?)
    (hconds : s'.conds = s.conds.set c cond := by rfl) : s.Upholds s' := by
  intro d hd
  rw [hconds, Table.get_set]
  split
  · subst d
    exact hcond hd
  · rfl

theorem Store.Upholds.of_native {q q' : NativeQueue} (hq : s.conds.get c = .native q)
    (hconds : s'.conds = s.conds.set c (.native q') := by rfl) : s.Upholds s' :=
  .of_write (fun _ => by rw [hq]; rfl) hconds

theorem Store.Upholds.of_fallback {f f' : Fallback} (hf : s.conds.get c = .fallback f)
    (hconds : s'.conds = s.conds.set c (.fallback f') := by rfl) : s.Upholds s' :=
  .of_write (fun _ => by rw [hf]; rfl) hconds

/-- A wakeup keeps the backend. -/
theorem WakeupPhase.step_upholds {event : WakeEvent} (p : WakeupPhase) :
    (p.step c event choice s).Keeps s.Upholds := by
  cases p <;> simp only [step, Store.violate, Store.withNative, Store.withFallback] <;>
    (repeat' split) <;> first
      | trivial
      | exact .of_same
      | exact .of_native ‹_›
      | exact .of_fallback ‹_›

/-- A native wait keeps the backend. -/
theorem NativeWaitPhase.step_upholds (p : NativeWaitPhase) :
    (p.step t c l timeout s).Keeps s.Upholds := by
  cases p <;> simp only [step, Store.violate, Store.withNative, Store.withLock] <;>
    (repeat' split) <;> first
      | trivial
      | exact .of_same
      | exact .of_native ‹_›

/-- So does a portable one. -/
theorem FallbackWaitPhase.step_upholds (p : FallbackWaitPhase) :
    (p.step t c l timeout s).Keeps s.Upholds := by
  cases p with
  | unlocking p => exact (p.step_conds.imp fun _ hs => .of_same hs).within fun _ _ hs => hs
  | locking p w => exact (p.step_conds.imp fun _ hs => .of_same hs).within fun _ _ hs => hs
  | _ =>
    simp only [step, Store.violate, Store.withFallback, afterDeparture]
    (repeat' split) <;> first
      | trivial
      | exact .of_same
      | exact .of_fallback ‹_›

/-- So does a wait with its checks. -/
theorem WaitPhase.step_upholds (p : WaitPhase) : (p.step t c l timeout s).Keeps s.Upholds := by
  cases p with
  | native p => exact p.step_upholds.within fun _ _ hs => hs
  | fallback p => exact p.step_upholds.within fun _ _ hs => hs
  | _ =>
    simp only [step, Store.violate, Store.withLock]
    (repeat' split) <;> first | trivial | exact .of_same

/-- So does a loop. -/
theorem WaitWhilePhase.step_upholds (p : WaitWhilePhase) :
    (p.step t c l timeout s).Keeps s.Upholds := by
  cases p with
  | waiting start rest p => exact p.step_upholds.within fun _ _ hs => hs
  | _ =>
    simp only [step]
    (repeat' split) <;> first | trivial | exact .of_same

/-- Only a destruction takes a condition variable away. -/
theorem Call.step_upholds {call : Call} (hdestroy : ∀ o unwinding, call ≠ .destroy o unwinding) :
    (call.step t choice s).Keeps s.Upholds := by
  cases call with
  | wakeup d event p => exact p.step_upholds.within fun _ _ hs => hs
  | wait d l timeout p => exact p.step_upholds.within fun _ _ hs => hs
  | waitWhile d l timeout p => exact p.step_upholds.within fun _ _ hs => hs
  | initCond d backend =>
    simp only [step, single, initCondStep, Store.violate]
    split
    · exact .of_same
    · exact .of_write fun hd => absurd hd ‹_›
  | destroy o unwinding => exact absurd rfl (hdestroy o unwinding)
  | _ => exact (step_conds (by simp [objects]) (by simp)).imp fun _ hs => .of_same hs

end

/-- A condition variable that a call works on keeps its backend. -/
theorem Machine.Change.backend {m m' : Machine} {move : Move} {t : Tid} {c : CondRef} {call : Call}
    (hchange : m.Change move m') (hsound : m.Sound) (hcall : call ∈ m.calls.get t)
    (hmem : .condition c ∈ call.objects m.store)
    (hcond : (m.store.conds.get c).isInitialized = true) :
    (m'.store.conds.get c).backend? = (m.store.conds.get c).backend? := by
  refine hchange.keeps (P := fun s' =>
    (s'.conds.get c).backend? = (m.store.conds.get c).backend?) (fun s' hgrows => ?_) ?_
  · rcases hgrows.conds c with hsame | ⟨hnew, -⟩
    · rw [hsame]
    · have hlt := Call.handle_lt_of_knows (hsound.known t call hcall) hmem
      exact absurd hnew (Nat.not_le.2 hlt)
  · intro u choice call' _ _ hunused
    -- a destruction spares what a call works on
    by_cases hdestroy : ∃ o unwinding, call' = .destroy o unwinding
    · obtain ⟨o, unwinding, rfl⟩ := hdestroy
      have hkept : ((m.store.destroy o unwinding).1.conds.get c).backend? =
          (m.store.conds.get c).backend? := by
        rcases m.store.destroy_cond o unwinding c with hsame | ⟨-, hpart⟩
        · rw [hsame]
        · exact absurd hmem (not_mem_objects hsound (hunused o unwinding rfl) hpart hcall)
      exact (Call.ends_destroy u choice m.store o unwinding).meets (fun _ => hkept) hkept
    · have hupholds : (call'.step u choice m.store).Keeps m.store.Upholds :=
        Call.step_upholds fun o unwinding heq => hdestroy ⟨o, unwinding, heq⟩
      exact Progress.Keeps.imp hupholds fun s' hs => hs c hcond

/-! ## The leave of a waiter

The mutex is released in one phase and taken in another, and the phases between the two are the
leave. `Leave.after` counts the deeds of the steps; that a phase has the leave which the deeds
before it add up to is `step_leave`, for each backend. In particular no path through a wait releases
twice. -/

/-- How far a waiter has come with giving its mutex up and taking it again. -/
inductive Leave where
  /-- It has not released the mutex. -/
  | before
  /-- It has released the mutex and not taken it again. -/
  | away
  | back
  deriving DecidableEq

/-- What a step that treats the platform lock like this makes of the leave. -/
def Leave.after (x : Leave) : LockDeed → Leave
  | .keep => x
  | .release => away
  | .take => back

def NativeWaitPhase.leave : NativeWaitPhase → Leave
  | entry | check _ | disclaim _ | enqueue _ | refused => .before
  | queued _ _ | retake _ _ => .away
  | claim _ _ => .back

def FallbackWaitPhase.leave : FallbackWaitPhase → Leave
  | enter | register | handBack | unlocking _ => .before
  | locking (.claim _) _ => .back
  | _ => .away

def WaitPhase.leave : WaitPhase → Leave
  | entry | identify | check _ => .before
  | native p => p.leave
  | fallback p => p.leave

section

variable {t : Tid} {c : CondRef} {l : LockRef} {timeout : Option Duration} {s : Store}

/-- In a native wait the platform releases the mutex as it takes the waiter in. -/
theorem NativeWaitPhase.step_leave (p : NativeWaitPhase) :
    (p.step t c l timeout s).Meets
      (fun _ p' => p'.leave = p.leave.after (p.deed ((s.conds.get c).accepts l)))
      (fun _ _ => ∃ me woken, p = .claim me woken) fun _ => True := by
  cases p with
  | enqueue me =>
    simp only [step, Store.withNative, Store.withLock]
    (repeat' split) <;> first
      | trivial
      | simp_all [Progress.Meets, leave, deed, Condition.accepts, Leave.after]
  | claim me woken =>
    apply Progress.Meets.withLock
    intro k _
    exact ⟨me, woken, rfl⟩
  | _ =>
    simp only [step, Store.violate, Store.withNative, Store.withLock]
    (repeat' split) <;> trivial

theorem UnlockPhase.step_deed (p : UnlockPhase) :
    (p.step t l s).Meets (fun _ _ => p.deed = .keep) (fun _ _ => p.deed = .release)
      fun _ => True := by
  cases p <;> simp only [step, Store.violate, Store.withLock] <;> (repeat' split) <;> trivial

/-- In a portable wait the unlock in the middle releases the mutex, and the lock at the end takes
it. -/
theorem FallbackWaitPhase.step_leave (p : FallbackWaitPhase) :
    (p.step t c l timeout s).Meets
      (fun _ p' => p'.leave = p.leave.after (p.part.deed l s))
      (fun _ _ => ∃ me w, p = .locking (.claim me) w) fun _ => True := by
  cases p with
  | unlocking p =>
    refine p.step_deed.within (fun _ _ hdeed => ?_) (fun _ _ hdeed => ?_) fun _ _ => trivial
    · exact congrArg (Leave.after .before) hdeed.symm
    · exact congrArg (Leave.after .before) hdeed.symm
  | locking p w =>
    cases p <;> simp only [step, LockPhase.step, Store.violate, Store.withLock] <;>
      (repeat' split) <;> first | trivial | exact ⟨_, _, rfl⟩
  | listen => exact rfl
  | _ =>
    simp only [step, Store.violate, Store.withFallback, afterDeparture]
    (repeat' split) <;> trivial

/-- The last step of a wait writes the identity of its thread into the owner word. -/
def WaitPhase.IsLast (p : WaitPhase) : Prop :=
  (∃ me woken, p = native (.claim me woken)) ∨ ∃ me w, p = fallback (.locking (.claim me) w)

/-- In either case a step of a wait moves the leave on as it treats the platform lock. -/
theorem WaitPhase.step_leave (p : WaitPhase) :
    (p.step t c l timeout s).Meets
      (fun _ p' => p'.leave = p.leave.after ((p.part c timeout).deed l s))
      (fun _ _ => p.IsLast) fun _ => True := by
  cases p with
  | native p =>
    refine p.step_leave.within (fun _ _ hs => hs) ?_ fun _ _ => trivial
    rintro s' reply ⟨me, woken, rfl⟩
    exact .inl ⟨me, woken, rfl⟩
  | fallback p =>
    refine p.step_leave.within (fun _ _ hs => hs) ?_ fun _ _ => trivial
    rintro s' reply ⟨me, w, rfl⟩
    exact .inr ⟨me, w, rfl⟩
  | _ =>
    simp only [step, Store.violate, Store.withLock]
    (repeat' split) <;> trivial

/-- The same of a step that goes on. -/
theorem WaitPhase.leave_of_next {s' : Store} {p p' : WaitPhase}
    (h : p.step t c l timeout s = .next s' p') :
    p'.leave = p.leave.after ((p.part c timeout).deed l s) := by
  have hleave : (p.step t c l timeout s).Meets _ _ _ := p.step_leave
  rwa [h] at hleave

theorem WaitPhase.isLast_of_done {s' : Store} {p : WaitPhase} {woken : Bool}
    (h : p.step t c l timeout s = .done s' woken) : p.IsLast := by
  have hleave : (p.step t c l timeout s).Meets _ _ _ := p.step_leave
  rwa [h] at hleave

theorem WaitPhase.IsLast.leave {p : WaitPhase} (h : p.IsLast) :
    p.leave = .back ∧ (p.part c timeout).deed l s = .keep := by
  rcases h with ⟨me, woken, rfl⟩ | ⟨me, w, rfl⟩ <;> exact ⟨rfl, rfl⟩

/-- A waiter releases the mutex at the beginning of its leave only. -/
theorem WaitPhase.leave_of_release {p : WaitPhase}
    (h : (p.part c timeout).deed l s = .release) : p.leave = .before := by
  cases p with
  | native p => cases p <;> first | rfl | cases h
  | fallback p =>
    cases p with
    | locking p w => cases p <;> cases h
    | _ => first | rfl | cases h
  | _ => cases h

end

/-- The backend that a wait has turned to. -/
def WaitPhase.backend? : WaitPhase → Option Backend
  | native _ => some .native
  | fallback _ => some .fallback
  | _ => none

/-- A wait turns to the backend that its condition variable has. -/
theorem WaitPhase.backend_of_next {t : Tid} {c : CondRef} {l : LockRef} {timeout : Option Duration}
    {s s' : Store} {p p' : WaitPhase} (h : p.step t c l timeout s = .next s' p') :
    p'.backend? = none ∨ p'.backend? = p.backend? ∨ p'.backend? = (s.conds.get c).backend? := by
  cases p with
  | native p =>
    obtain ⟨q, -, rfl⟩ | ⟨_, _, -, hdone⟩ := Progress.next_of_within h
    · exact .inr (.inl rfl)
    · cases hdone
  | fallback p =>
    obtain ⟨q, -, rfl⟩ | ⟨_, _, -, hdone⟩ := Progress.next_of_within h
    · exact .inr (.inl rfl)
    · cases hdone
  | check me =>
    simp only [step, Store.withLock, Store.violate] at h
    (repeat' split at h) <;> cases h
    all_goals exact .inr (.inr (by rw [‹s.conds.get c = _›]; rfl))
  | _ =>
    simp only [step, Store.violate] at h
    (repeat' split at h) <;> cases h
    exact .inl rfl

/-- The portable condition variable refuses no mutex. -/
theorem WaitPhase.refused_of_fault {t : Tid} {c : CondRef} {l : LockRef}
    {timeout : Option Duration} {s s' : Store} {p : WaitPhase}
    (h : p.step t c l timeout s = .fault s' .secondMutex) : p = native .refused := by
  cases p with
  | native p =>
    cases p with
    | refused => rfl
    | _ =>
      -- no other phase of the platform's wait fails for a second mutex
      simp only [step, NativeWaitPhase.step, Store.violate, Store.withNative, Store.withLock] at h
      (repeat' split at h) <;> cases h
  | fallback p =>
    cases p with
    | unlocking p =>
      cases p <;> simp only [step, FallbackWaitPhase.step, UnlockPhase.step, Store.violate,
        Store.withLock] at h <;> (repeat' split at h) <;> cases h
    | locking p w =>
      cases p <;> simp only [step, FallbackWaitPhase.step, LockPhase.step, Store.violate,
        Store.withLock] at h <;> (repeat' split at h) <;> cases h
    | listen => cases h
    | _ =>
      simp only [step, FallbackWaitPhase.step, FallbackWaitPhase.afterDeparture, Store.violate,
        Store.withFallback] at h
      (repeat' split at h) <;> cases h
  | _ =>
    simp only [step, Store.violate, Store.withLock] at h
    (repeat' split at h) <;> cases h

/-! ## In the middle of a wait

From here on the wait is one of a run. `InWait` follows one thread's call from phase to phase; it
says where the wait began, so that "once" and "since" can be said of the moves between. -/

namespace Run

variable {r : Run} {t u : Tid} {a i : Nat} {c : CondRef} {l k : LockRef}
  {timeout : Option Duration} {wrap : WaitPhase → Call}
  {finish : Store → Bool → Progress Call Reply} {p p' : WaitPhase} {choice : Choice} {x : Leave}

theorem Idle.not_releases (h : r.Idle t i) : ¬ r.Releases l t i := by
  rintro ⟨choice, hmove, hmoves, -⟩
  exact hmoves (h choice hmove)

theorem Idle.not_takes (h : r.Idle t i) : ¬ r.Takes l t i := by
  rintro ⟨choice, hmove, hmoves, -⟩
  exact hmoves (h choice hmove)

theorem Has.initialized (h : r.Has l t i) : (r.state i).store.lock l ≠ none := by
  obtain ⟨j, hsince⟩ := h
  exact hsince.initialized i hsince.before (Nat.le_refl i)

/-- A thread loses a mutex only by releasing it. -/
theorem Has.succ (h : r.Has l t i) (hinit : (r.state (i + 1)).store.lock l ≠ none)
    (hreleases : ¬ r.Releases l t i) : r.Has l t (i + 1) := by
  have hholder := holder_iff_has.2 h
  apply holder_iff_has.1
  rcases holder_succ hinit with hsame | ⟨u, htakes | hreleases'⟩ | ⟨hnew, -⟩
  · exact hsame.trans hholder
  · cases hholder.symm.trans htakes.does.1
  · obtain rfl : t = u := Option.some.inj (hholder.symm.trans hreleases'.does.1)
    exact absurd hreleases' hreleases
  · obtain ⟨j, hsince⟩ := h
    have hknown := Nat.lt_of_lt_of_le hsince.takes.known
      (r.nextHandle_mono (Nat.le_of_lt hsince.before))
    exact absurd hnew (Nat.not_le.2 hknown)

/-- A thread that runs its client's code and has a mutex stands in the owner word. -/
theorem Has.owner (h : r.Has l t i) (hclient : ((r.state i).call? t).all Call.atBody = true) :
    (r.state i).store.ids.own.get t ≠ .nobody ∧
      (r.state i).store.lock l = some ⟨some t, (r.state i).store.ids.own.get t⟩ := by
  have hgrip : (r.state i).grip l t = .none := by
    refine Machine.see_eq fun call hcall => ?_
    rw [hcall] at hclient
    exact (Call.Calm.body hclient).grip l _
  have hholding := r.state_holds l i
  obtain ⟨⟨holder, owner⟩, hk⟩ := Option.ne_none_iff_exists'.1 h.initialized
  obtain rfl : holder = some t := (Store.holder_of_lock hk).symm.trans (holder_iff_has.2 h)
  have howner := hholding.owner_of_holder hk rfl (by rw [hgrip]; decide)
  cases howner
  refine ⟨fun hnobody => ?_, hk⟩
  cases hgrip.symm.trans (hholding.unclaimed _ t hk rfl hnobody)

/-- Thread `t` has been in a wait since move `a`, from its beginning on, and is in phase `p` of it
before move `i`. -/
inductive InWait (r : Run) (wrap : WaitPhase → Call) (t : Tid) (a : Nat) : Nat → WaitPhase → Prop
  | begins (hcall : (r.state a).call? t = some (wrap .entry)) : InWait r wrap t a a .entry
  | goes {i : Nat} {p p' : WaitPhase} (h : InWait r wrap t a i p)
    (hcall : (r.state (i + 1)).call? t = some (wrap p')) : InWait r wrap t a (i + 1) p'

namespace InWait

theorem call? (h : r.InWait wrap t a i p) : (r.state i).call? t = some (wrap p) := by
  cases h <;> assumption

theorem le (h : r.InWait wrap t a i p) : a ≤ i := by
  induction h with
  | begins => exact Nat.le_refl a
  | goes _ _ ih => exact Nat.le_succ_of_le ih

/-- A wait goes on only by a step of its thread. -/
theorem cases_succ (hw : Call.Waiter c l timeout wrap finish) (h : r.InWait wrap t a i p)
    (hcall : (r.state (i + 1)).call? t = some (wrap p')) :
    p' = p ∧ r.Idle t i ∨ ∃ choice, r.move i = .advance t choice ∧
      p.step t c l timeout (r.state i).store = .next (r.state (i + 1)).store p' := by
  have hinj {p p' : WaitPhase} (heq : wrap p = wrap p') : p = p' := by
    cases hw <;> cases heq <;> rfl
  obtain ⟨outer, hget⟩ := List.head?_eq_some_iff.1 h.call?
  obtain ⟨outer', hget'⟩ := List.head?_eq_some_iff.1 hcall
  cases r.stacked i t with
  | same hcalls hidle =>
    rw [hcalls, hget] at hget'
    cases hinj (List.cons.inj hget').1
    exact .inl ⟨rfl, hidle⟩
  | begun _ _ hclient =>
    simp [Machine.inClient, h.call?, hw.atBody] at hclient
  | resumed _ hget₀ hbody =>
    cases hget.symm.trans hget₀
    simp [hw.atBody] at hbody
  | @next choice _ _ _ hmove hget₀ hstep hcalls =>
    cases hget.symm.trans hget₀
    cases hcalls.symm.trans hget'
    rw [hw.step] at hstep
    obtain ⟨q, hq, heq⟩ | ⟨s', woken, -, hfinish⟩ := Progress.next_of_within hstep
    · obtain rfl := hinj heq
      exact .inr ⟨choice, hmove, hq⟩
    · cases hw <;> cases hfinish
  | last _ hget₀ _ hcalls =>
    -- the calls below run their client's code
    cases hget.symm.trans hget₀
    have hbody := (r.state_sound i).waiting t _ outer hget (wrap p')
      (hcalls ▸ hget' ▸ List.mem_cons_self)
    simp [hw.atBody] at hbody
  | born _ hnew => cases hnew.symm.trans hget

/-- A thread in a wait is in the code of the mutex that the phase of the wait is in. -/
theorem deed (hw : Call.Waiter c l timeout wrap finish) (h : r.InWait wrap t a i p) :
    (r.state i).deed l t = (p.part c timeout).deed l (r.state i).store := by
  rw [Machine.deed, Machine.part, Machine.see_of_call? h.call?, hw.part]

/-- It does nothing to any other mutex. -/
theorem not_releases (hw : Call.Waiter c l timeout wrap finish) (h : r.InWait wrap t a i p)
    (hk : k ≠ l) : ¬ r.Releases k t i := by
  have hpart : (r.state i).part k t = .aside := by
    rw [Machine.part, Machine.see_of_call? h.call?]
    cases hw <;> exact if_neg hk.symm
  rintro ⟨choice, -, -, hdeed⟩
  rw [Machine.deed, hpart] at hdeed
  cases hdeed

theorem lock_stays (hw : Call.Waiter c l timeout wrap finish) (h : r.InWait wrap t a i p)
    (hinit : (r.state i).store.lock l ≠ none) : (r.state (i + 1)).store.lock l ≠ none := by
  refine lock_stays_of_mem (Machine.mem_of_call? h.call?) ?_ hinit
  cases hw <;> simp [Call.objects]

end InWait

/-! ## What becomes of the mutex

`OnLeave` reads the leave as a statement about the past: not released so far, released once and not
taken since, or had again. `InWait.onLeave` is the induction over the moves of the wait; a move of
another thread leaves all three as they are. -/

/-- What thread `t` has done with mutex `l` since move `a`, by its leave before move `i`. -/
def OnLeave (r : Run) (l : LockRef) (t : Tid) (a i : Nat) : Leave → Prop
  | .before => r.Has l t i ∧ ∀ n, a ≤ n → n < i → ¬ r.Releases l t n
  | .away => ¬ r.Has l t i ∧ ∃! n, (a ≤ n ∧ n < i) ∧ r.Releases l t n
  | .back => r.Has l t i ∧ ∃! n, (a ≤ n ∧ n < i) ∧ r.Releases l t n

/-- Where nothing is released, the release before stays the only one. -/
theorem once_succ (h : ∃! n, (a ≤ n ∧ n < i) ∧ r.Releases l t n) (hnot : ¬ r.Releases l t i) :
    ∃! n, (a ≤ n ∧ n < i + 1) ∧ r.Releases l t n := by
  obtain ⟨n, ⟨⟨han, hni⟩, hreleases⟩, hunique⟩ := h
  refine ⟨n, ⟨⟨han, Nat.lt_succ_of_lt hni⟩, hreleases⟩, ?_⟩
  rintro m ⟨⟨ham, hmi⟩, hm⟩
  rcases Nat.lt_or_eq_of_le (Nat.le_of_lt_succ hmi) with hmi | rfl
  · exact hunique m ⟨⟨ham, hmi⟩, hm⟩
  · exact absurd hm hnot

/-- The first release is the only one so far. -/
theorem once_of_first (hai : a ≤ i) (h : ∀ n, a ≤ n → n < i → ¬ r.Releases l t n)
    (hreleases : r.Releases l t i) : ∃! n, (a ≤ n ∧ n < i + 1) ∧ r.Releases l t n := by
  refine ⟨i, ⟨⟨hai, Nat.lt_succ_self i⟩, hreleases⟩, ?_⟩
  rintro m ⟨⟨ham, hmi⟩, hm⟩
  rcases Nat.lt_or_eq_of_le (Nat.le_of_lt_succ hmi) with hmi | rfl
  · exact absurd hm (h m ham hmi)
  · rfl

namespace OnLeave

/-- A move that treats the mutex in no way. -/
theorem keep (h : r.OnLeave l t a i x) (hinit : (r.state (i + 1)).store.lock l ≠ none)
    (hreleases : ¬ r.Releases l t i) (htakes : ¬ r.Takes l t i) : r.OnLeave l t a (i + 1) x := by
  cases x with
  | before =>
    refine ⟨h.1.succ hinit hreleases, fun n han hni => ?_⟩
    rcases Nat.lt_or_eq_of_le (Nat.le_of_lt_succ hni) with hni | rfl
    · exact h.2 n han hni
    · exact hreleases
  | away => exact ⟨not_has_succ h.1 htakes, once_succ h.2 hreleases⟩
  | back => exact ⟨h.1.succ hinit hreleases, once_succ h.2 hreleases⟩

/-- The move that begins the leave. -/
theorem release (h : r.OnLeave l t a i .before) (hai : a ≤ i) (hreleases : r.Releases l t i) :
    r.OnLeave l t a (i + 1) .away := by
  refine ⟨?_, once_of_first hai h.2 hreleases⟩
  rw [← holder_iff_has, hreleases.does.2]
  simp

/-- The move that ends it. -/
theorem take (h : r.OnLeave l t a i x) (htakes : r.Takes l t i) :
    r.OnLeave l t a (i + 1) .back := by
  -- whoever takes the mutex does not have it, and so is away
  have hnot : ¬ r.Has l t i := by
    rw [← holder_iff_has, htakes.does.1]
    simp
  have hreleases : ¬ r.Releases l t i := by
    intro hreleases
    cases hreleases.does.1.symm.trans htakes.does.1
  cases x with
  | away => exact ⟨holder_iff_has.1 htakes.does.2, once_succ h.2 hreleases⟩
  | before => exact absurd h.1 hnot
  | back => exact absurd h.1 hnot

end OnLeave

/-- The leave of a thread in a wait tells what it has done with the mutex. -/
theorem InWait.onLeave (hw : Call.Waiter c l timeout wrap finish) (h : r.InWait wrap t a i p)
    (hhas : r.Has l t a) : (r.state i).store.lock l ≠ none ∧ r.OnLeave l t a i p.leave := by
  induction h with
  | begins => exact ⟨hhas.initialized, hhas, fun n han hna => absurd han (Nat.not_le.2 hna)⟩
  | @goes i p p' h hcall ih =>
    obtain ⟨hinit, hleave⟩ := ih
    have hinit' := h.lock_stays hw hinit
    refine ⟨hinit', ?_⟩
    rcases h.cases_succ hw hcall with ⟨rfl, hidle⟩ | ⟨choice, hmove, hstep⟩
    · exact hleave.keep hinit' hidle.not_releases hidle.not_takes
    · have hmoves : ((r.state i).advance t choice).2 ≠ .blocked := by
        obtain ⟨outer, hget⟩ := List.head?_eq_some_iff.1 h.call?
        rw [ne_eq, Machine.advance_blocked hget, hw.step, hstep]
        simp [Progress.within]
      have hdeed := h.deed hw
      -- the step keeps, releases or takes the platform lock
      rw [WaitPhase.leave_of_next hstep]
      cases hd : (p.part c timeout).deed l (r.state i).store with
      | keep =>
        rw [hd] at hdeed
        refine hleave.keep hinit' ?_ ?_
        · rintro ⟨_, -, -, hreleases⟩
          cases hdeed.symm.trans hreleases
        · rintro ⟨_, -, -, htakes⟩
          cases hdeed.symm.trans htakes
      | release =>
        rw [WaitPhase.leave_of_release hd] at hleave
        exact hleave.release h.le ⟨choice, hmove, hmoves, hdeed.trans hd⟩
      | take => exact hleave.take ⟨choice, hmove, hmoves, hdeed.trans hd⟩

/-! ## How a wait ends

The checks inside a wait succeed: those of the mutex, because the thread has it when they are made
or does not have it when it locks; those of the portable protocol, because the run is within the
limit. What can fail is the platform's own check for a second mutex. -/

/-- A wait goes on, or its thread has taken the last step of it. -/
theorem InWait.progress (hw : Call.Waiter c l timeout wrap finish) (h : r.InWait wrap t a i p) :
    (∃ p', r.InWait wrap t a (i + 1) p') ∨ ∃ choice, r.move i = .advance t choice ∧
      ((∃ s' woken, p.step t c l timeout (r.state i).store = .done s' woken) ∨
        ∃ s' why, p.step t c l timeout (r.state i).store = .fault s' why) := by
  obtain ⟨outer, hget⟩ := List.head?_eq_some_iff.1 h.call?
  by_cases hown : ∃ choice, r.move i = .advance t choice
  · obtain ⟨choice, hmove⟩ := hown
    cases hstep : p.step t c l timeout (r.state i).store with
    | next s' p' => exact .inl ⟨p', h.goes (call?_of_wait hw hmove h.call? hstep)⟩
    | done s' woken => exact .inr ⟨choice, hmove, .inl ⟨s', woken, rfl⟩⟩
    | fault s' why => exact .inr ⟨choice, hmove, .inr ⟨s', why, rfl⟩⟩
    | abort s' => exact absurd hstep (p.step_survives s')
    | blocked =>
      have hblocked : (wrap p).step t choice (r.state i).store = .blocked := by
        rw [hw.step, hstep]
        rfl
      refine .inl ⟨p, h.goes ?_⟩
      rw [state_of_advance hmove, Machine.advance_of_blocked hget hblocked]
      exact h.call?
  · have hkept := (r.state_change i).calls_kept (r.state_sound i) hget (hw.atBody p)
      fun choice hmove => hown ⟨choice, hmove⟩
    exact .inl ⟨p, h.goes (Machine.call?_of_get hkept)⟩

/-- A wait that has ended by itself has given the mutex back. -/
theorem InWait.of_done (hw : Call.Waiter c l timeout wrap finish) (h : r.InWait wrap t a i p)
    (hhas : r.Has l t a) {s' : Store} {woken : Bool}
    (hstep : p.step t c l timeout (r.state i).store = .done s' woken) :
    r.Has l t (i + 1) ∧ ∃! n, (a ≤ n ∧ n < i + 1) ∧ r.Releases l t n := by
  obtain ⟨hinit, hleave⟩ := h.onLeave hw hhas
  obtain ⟨hback, hkeep⟩ :
      p.leave = .back ∧ (p.part c timeout).deed l (r.state i).store = .keep :=
    (WaitPhase.isLast_of_done hstep).leave
  have hreleases : ¬ r.Releases l t i := by
    rintro ⟨_, -, -, hreleases⟩
    cases hkeep.symm.trans ((h.deed hw).symm.trans hreleases)
  rw [hback] at hleave
  exact ⟨hleave.1.succ (h.lock_stays hw hinit) hreleases, once_succ hleave.2 hreleases⟩

/-- The condition variable of a wait keeps its backend, and the wait runs on that. -/
theorem InWait.backend (hw : Call.Waiter c l timeout wrap finish) (h : r.InWait wrap t a i p)
    (hcond : ((r.state a).store.conds.get c).isInitialized = true) :
    ((r.state i).store.conds.get c).backend? = ((r.state a).store.conds.get c).backend? ∧
      (p.backend? = none ∨ p.backend? = ((r.state i).store.conds.get c).backend?) := by
  induction h with
  | begins => exact ⟨rfl, .inl rfl⟩
  | @goes i p p' h hcall ih =>
    have hcond' : ((r.state i).store.conds.get c).isInitialized = true := by
      rw [Condition.isInitialized, ih.1]
      exact hcond
    have hmem : .condition c ∈ (wrap p).objects (r.state i).store := by
      cases hw <;> simp [Call.objects]
    have hsame := (r.state_change i).backend (r.state_sound i) (Machine.mem_of_call? h.call?)
      hmem hcond'
    refine ⟨hsame.trans ih.1, ?_⟩
    rw [hsame]
    rcases h.cases_succ hw hcall with ⟨rfl, -⟩ | ⟨choice, -, hstep⟩
    · exact ih.2
    · rcases WaitPhase.backend_of_next hstep with hnone | hbefore | hnew
      · exact .inl hnone
      · exact hbefore ▸ ih.2
      · exact .inr hnew

/-- A wait fails only when the platform refuses its mutex. -/
theorem InWait.of_fault (hw : Call.Waiter c l timeout wrap finish) (h : r.InWait wrap t a i p)
    (hhas : r.Has l t a) (hcond : ((r.state a).store.conds.get c).isInitialized = true)
    (hlimit : ((r.state a).store.conds.get c).backend? = some .fallback → r.WithinLimit c)
    (hmove : r.move i = .advance t choice) {s' : Store} {why : Panic}
    (hstep : p.step t c l timeout (r.state i).store = .fault s' why) : p = .native .refused := by
  obtain ⟨hinit, hleave⟩ := h.onLeave hw hhas
  obtain ⟨k, hk⟩ := Option.ne_none_iff_exists'.1 hinit
  obtain ⟨hsame, hbackend⟩ := h.backend hw hcond
  have hpart : (r.state i).part l t = p.part c timeout := by
    rw [Machine.part, Machine.see_of_call? h.call?, hw.part]
  -- a check finds the mutex in the thread's hands
  have hcheck {me : ThreadId} (hp : (p.part c timeout).check? = some me) (hx : p.leave = .before) :
      k.owner = me := by
    rw [hx] at hleave
    exact (check_iff hk (hpart ▸ hp)).2.2.2 hleave.1
  cases p with
  | entry =>
    have hcond' : ((r.state i).store.conds.get c).isInitialized = true := by
      rw [Condition.isInitialized, hsame]
      exact hcond
    simp [WaitPhase.step, hcond'] at hstep
  | identify => simp [WaitPhase.step, hk] at hstep
  | check me =>
    have howner := hcheck rfl rfl
    simp only [WaitPhase.step, Store.withLock, hk, howner] at hstep
    split at hstep
    · contradiction
    · split at hstep <;> cases hstep
  | native q =>
    cases q with
    | entry => simp [WaitPhase.step, NativeWaitPhase.step, hk, Progress.within] at hstep
    | check me =>
      have howner := hcheck rfl rfl
      simp [WaitPhase.step, NativeWaitPhase.step, Store.withLock, hk, howner,
        Progress.within] at hstep
    | refused => rfl
    | _ =>
      simp only [WaitPhase.step, NativeWaitPhase.step, Store.withLock, Store.withNative] at hstep
      (repeat' split at hstep) <;> cases hstep
  | fallback q =>
    have hplace : (r.state i).place c t ≠ .outside := by
      rw [hw.place_of_call? h.call?, if_pos rfl]
      simp
    have hlimit' := hlimit
      (hsame.symm.trans (hbackend.resolve_left (by simp [WaitPhase.backend?])).symm)
    obtain ⟨outer, hget⟩ := List.head?_eq_some_iff.1 h.call?
    have hfault : (wrap (.fallback q)).step t choice (r.state i).store = .fault s' why := by
      rw [hw.step, hstep]
      rfl
    obtain ⟨hpanics, -⟩ := (state_orderly hlimit' i).advance_succeeds (r.state_identified i)
      (fun l => r.state_holds l i) (hmove ▸ hlimit' i) hplace
    exact absurd (by rw [Machine.advance_of_fault hget hfault]) (hpanics why)

/-- A wait that is refused leaves its mutex free. -/
theorem InWait.step_refused (hw : Call.Waiter c l timeout wrap finish)
    (h : r.InWait wrap t a i (.native .refused)) :
    (WaitPhase.native .refused).step t c l timeout (r.state i).store =
      .fault ((r.state i).store.setLock l .free) .secondMutex := by
  have hgrip : (r.state i).grip l t = .blank := by
    rw [Machine.grip, Machine.see_of_call? h.call?]
    cases hw <;> exact if_pos rfl
  have hfits := (r.state_holds l i).grips t
  rw [hgrip] at hfits
  have hlock : (r.state i).store.lock l = some ⟨some t, .nobody⟩ := hfits
  simp only [WaitPhase.step, NativeWaitPhase.step, Store.withLock, hlock]
  rfl

end Run

/-! ## Becoming a waiter

That no wakeup falls between the release and the sleep is a matter of order: a portable wait has
registered before it unlocks, and the platform takes a waiter in and releases its mutex in one
step. -/

/-- A thread that the platform accepts is in the queue once the mutex is released. -/
theorem NativeWaitPhase.step_enqueue {t : Tid} {c : CondRef} {l : LockRef}
    {timeout : Option Duration} {s : Store} {me : ThreadId}
    (haccepts : (s.conds.get c).accepts l = true) (hlock : s.lock l ≠ none) :
    ∃ s', (enqueue me).step t c l timeout s =
        .next s' (queued me (s.clock.deadline (timeout.map Duration.truncated))) ∧
      s'.Queued c t := by
  obtain ⟨k, hk⟩ := Option.ne_none_iff_exists'.1 hlock
  cases hcond : s.conds.get c with
  | native q =>
    rw [hcond] at haccepts
    have haccepts' : q.accepts l = true := haccepts
    refine ⟨(s.setCond c (.native (q.enqueue t l))).setLock l k.release, ?_, q.enqueue t l,
      Table.get_set_self .., NativeQueue.waiting_iff.2 ⟨l, by simp [NativeQueue.enqueue]⟩⟩
    simp only [step, Store.withNative, hcond, Store.withLock, hk, haccepts', if_true]
  | _ =>
    rw [hcond] at haccepts
    cases haccepts

namespace Run

variable {r : Run} {t u : Tid} {a b i j : Nat} {c : CondRef} {l k : LockRef}
  {timeout : Option Duration} {wrap : WaitPhase → Call}
  {finish : Store → Bool → Progress Call Reply} {p : WaitPhase} {choice : Choice}

/-- A thread that releases the mutex of its wait has not released it before. -/
theorem InWait.not_released (hw : Call.Waiter c l timeout wrap finish)
    (h : r.InWait wrap t a i p) (hhas : r.Has l t a) (hreleases : r.Releases l t i) :
    ∀ n, a ≤ n → n < i → ¬ r.Releases l t n := by
  obtain ⟨-, hleave⟩ := h.onLeave hw hhas
  obtain ⟨choice, -, -, hdeed⟩ := hreleases
  rw [WaitPhase.leave_of_release ((h.deed hw).symm.trans hdeed)] at hleave
  exact hleave.2

/-- Who releases a mutex in a wait has become a waiter, or is refused. -/
theorem InWait.waits_of_release (hw : Call.Waiter c l timeout wrap finish)
    (h : r.InWait wrap t a i p) (hreleases : r.Releases l t i) :
    p = .native .refused ∨ (r.state (i + 1)).Waits c t .native ∨
      (r.state i).Waits c t .fallback ∧ (r.state (i + 1)).Waits c t .fallback := by
  have hlock : (r.state i).store.lock l ≠ none := (holder_iff_has.1 hreleases.does.1).initialized
  obtain ⟨choice, hmove, hmoves, hdeed⟩ := hreleases
  rw [h.deed hw] at hdeed
  -- only these phases release the mutex: into the platform's queue, after a refusal, or once
  -- registered
  cases p with
  | native q =>
    cases q with
    | enqueue me =>
      have haccepts : ((r.state i).store.conds.get c).accepts l = true := by
        simp only [WaitPhase.part, LockPart.deed, NativeWaitPhase.deed] at hdeed
        split at hdeed
        · assumption
        · cases hdeed
      obtain ⟨s', hstep, hqueued⟩ : ∃ s', (NativeWaitPhase.enqueue me).step t c l timeout
          (r.state i).store = .next s' _ ∧ s'.Queued c t :=
        NativeWaitPhase.step_enqueue haccepts hlock
      obtain ⟨outer, hget⟩ := List.head?_eq_some_iff.1 h.call?
      have hnext : (wrap (.native (.enqueue me))).step t choice (r.state i).store =
          .next s' (wrap (.native (.queued me
            ((r.state i).store.clock.deadline (timeout.map Duration.truncated))))) := by
        rw [hw.step, WaitPhase.step, hstep]
        rfl
      refine .inr (.inl ?_)
      rw [Machine.Waits, state_of_advance hmove, Machine.advance_store choice hget, hnext]
      exact hqueued
    | refused => exact .inl rfl
    | _ => cases hdeed
  | fallback q =>
    cases q with
    | unlocking q =>
      cases q with
      | release =>
        obtain ⟨k, hk⟩ := Option.ne_none_iff_exists'.1 hlock
        have hstep : (WaitPhase.fallback (.unlocking .release)).step t c l timeout
            (r.state i).store =
              .next ((r.state i).store.setLock l k.release) (.fallback .listen) := by
          simp [WaitPhase.step, FallbackWaitPhase.step, UnlockPhase.step, Store.withLock, hk,
            Progress.within]
        have hcall := call?_of_wait hw hmove h.call? hstep
        refine .inr (.inr ⟨?_, ?_⟩)
        · rw [Machine.Waits, hw.place_of_call? h.call?, if_pos rfl]
          rfl
        · rw [Machine.Waits, hw.place_of_call? hcall, if_pos rfl]
          rfl
      | _ => cases hdeed
    | locking q w => cases q <;> cases hdeed
    | _ => cases hdeed
  | _ => cases hdeed

/-! ## Waits -/

/-- Move `i` is the one in which thread `t` begins the wait, or comes while the wait lasts, or is
the first after it. -/
def Spans (r : Run) (wrap : WaitPhase → Call) (t : Tid) (b i : Nat) : Prop :=
  b ≤ i ∧ ∀ n, b < n → n < i → ∃ p, r.InWait wrap t (b + 1) n p

/-- The wait that thread `t` begins in move `b` ends in move `i`. -/
structure EndsWait (r : Run) (wrap : WaitPhase → Call) (t : Tid) (b i : Nat) (notice : Notice) :
    Prop where
  lasts : ∃ p, r.InWait wrap t (b + 1) i p
  step : ∃ choice, r.move i = .advance t choice ∧ ((r.state i).advance t choice).2 = notice

/-- What the thread learns from a step of its wait tells how the step went. -/
theorem InWait.advance (h : r.InWait (.wait c l timeout) t a i p) (choice : Choice) :
    (∀ woken, ((r.state i).advance t choice).2 = .replied (.flag woken) ↔
      ∃ s', p.step t c l timeout (r.state i).store = .done s' woken) ∧
    ∀ why, ((r.state i).advance t choice).2 = .panicked why ↔
      ∃ s', p.step t c l timeout (r.state i).store = .fault s' why := by
  have hstep : (Call.wait c l timeout p).step t choice (r.state i).store =
      Call.lift (.wait c l timeout) .flag (p.step t c l timeout (r.state i).store) := rfl
  rw [Machine.advance_notice h.call?, hstep]
  refine ⟨fun woken => ?_, fun why => Progress.notice_lift_panicked⟩
  simp [Progress.notice_lift_replied]

/-- After the last step of a wait its thread runs its client's code. -/
theorem InWait.client (h : r.InWait (.wait c l timeout) t a i p)
    (hmove : r.move i = .advance t choice) {s' : Store} {woken : Bool}
    (hstep : p.step t c l timeout (r.state i).store = .done s' woken) :
    ((r.state (i + 1)).call? t).all Call.atBody = true := by
  obtain ⟨outer, hget⟩ := List.head?_eq_some_iff.1 h.call?
  have hdone : (Call.wait c l timeout p).step t choice (r.state i).store =
      .done s' (.flag woken) := by
    rw [Call.Waiter.plain.step, hstep]
    rfl
  rw [state_of_advance hmove, Machine.advance_of_done hget hdone, Machine.call?,
    Table.get_set_self, Option.all_eq_true]
  intro call hcall
  exact (r.state_sound i).waiting t _ outer hget call (List.mem_of_head? hcall)

/-! ### A wait that is begun with the mutex

The wait is the thread's innermost call until it ends, so what happens to the mutex in between is
what the phases of the wait do to it (`InWait.onLeave`). Each of the facts below is read off the
phase in which the wait is when the thing happens. -/

/-- Thread `t` has begun a wait in move `b`, on an initialized condition variable and with the
mutex. -/
structure BeginsWait (r : Run) (c : CondRef) (l : LockRef) (t : Tid) (b : Nat) : Prop where
  store : (r.state (b + 1)).store = (r.state b).store
  idle : r.Idle t b
  initialized : ((r.state (b + 1)).store.conds.get c).isInitialized = true
  has : r.Has l t (b + 1)
  own : (r.state b).store.ids.own.get t ≠ .nobody

/-- A wait that is begun so finds all this in its first state. -/
theorem beginsWait (hbegin : r.move b = .begin t (.waiting c l timeout))
    (hcond : ((r.state b).store.conds.get c).isInitialized = true) (hhas : r.Has l t b) :
    r.BeginsWait c l t b := by
  have hallows := r.state_allows b
  rw [hbegin] at hallows
  simp only [Machine.allows, Machine.inClient, Bool.and_eq_true] at hallows
  have hstore : (r.state (b + 1)).store = (r.state b).store := by
    rw [state_succ, hbegin]
    rfl
  have hidle : r.Idle t b := fun choice hmove => by cases hbegin.symm.trans hmove
  exact ⟨hstore, hidle, hstore ▸ hcond,
    hhas.succ (by rw [hstore]; exact hhas.initialized) hidle.not_releases,
    (hhas.owner hallows.1.1.2).1⟩

theorem existsUnique_release_iff : (∃! n, (b + 1 ≤ n ∧ n < i + 1) ∧ r.Releases l t n) ↔
    ∃! n, (b < n ∧ n ≤ i) ∧ r.Releases l t n := by
  simp only [Nat.succ_le_iff, Nat.lt_succ_iff]

section

variable (h : r.BeginsWait c l t b)

include h

theorem BeginsWait.identity (hbi : b ≤ i) :
    (r.state i).store.ids.own.get t = (r.state b).store.ids.own.get t :=
  own_stable hbi h.own

/-- No check of a wait fails that is begun so, but for the platform's own. -/
theorem BeginsWait.exits
    (hlimit : ((r.state b).store.conds.get c).backend? = some .fallback → r.WithinLimit c)
    (hwait : r.InWait (.wait c l timeout) t (b + 1) i p) :
    (∃ p', r.InWait (.wait c l timeout) t (b + 1) (i + 1) p') ∨
      (∃ woken, r.EndsWait (.wait c l timeout) t b i (.replied (.flag woken))) ∨
        r.EndsWait (.wait c l timeout) t b i (.panicked .secondMutex) := by
  rcases hwait.progress .plain with hgoes | ⟨choice, hmove, ⟨s', woken, hstep⟩ | ⟨s', why, hstep⟩⟩
  · exact .inl hgoes
  · exact .inr (.inl ⟨woken, ⟨p, hwait⟩, choice, hmove,
      ((hwait.advance choice).1 woken).2 ⟨s', hstep⟩⟩)
  · obtain rfl := hwait.of_fault .plain h.has h.initialized (h.store ▸ hlimit) hmove hstep
    have hrefused := hwait.step_refused .plain
    exact .inr (.inr ⟨⟨_, hwait⟩, choice, hmove,
      ((hwait.advance choice).2 .secondMutex).2 ⟨_, hrefused⟩⟩)

/-- The later one of two releases would not be the first one. -/
theorem BeginsWait.release_unique {m n : Nat} {q : WaitPhase}
    (hm : r.InWait (.wait c l timeout) t (b + 1) m p)
    (hn : r.InWait (.wait c l timeout) t (b + 1) n q) (hreleases : r.Releases l t m)
    (hreleases' : r.Releases l t n) : m = n := by
  rcases Nat.lt_trichotomy m n with hmn | rfl | hnm
  · exact absurd hreleases (hn.not_released .plain h.has hreleases' m hm.le hmn)
  · rfl
  · exact absurd hreleases' (hm.not_released .plain h.has hreleases n hn.le hnm)

/-- A wait that returns has released the mutex once. -/
theorem BeginsWait.released_once {woken : Bool}
    (hends : r.EndsWait (.wait c l timeout) t b i (.replied (.flag woken))) :
    ∃! n, (b < n ∧ n ≤ i) ∧ r.Releases l t n := by
  obtain ⟨⟨p, hwait⟩, choice, hmove, hnotice⟩ := hends
  obtain ⟨s', hstep⟩ := ((hwait.advance choice).1 woken).1 hnotice
  exact existsUnique_release_iff.1 (hwait.of_done .plain h.has hstep).2

/-- Who is away from the mutex does not have it, so its identity is not in the owner word. -/
theorem BeginsWait.away (hwait : r.InWait (.wait c l timeout) t (b + 1) i p)
    (hp : p.leave = .away) : ¬ r.Has l t i ∧
      ∀ k, (r.state i).store.lock l = some k → k.owner ≠ (r.state i).store.ids.own.get t := by
  obtain ⟨-, hleave⟩ := hwait.onLeave .plain h.has
  rw [hp] at hleave
  refine ⟨hleave.1, fun k hk howner => hleave.1 ?_⟩
  have hown : (r.state i).store.ids.own.get t ≠ .nobody := by
    rw [h.identity (Nat.le_of_succ_le hwait.le)]
    exact h.own
  have hholder := (r.state_holds l i).holder_of_owner (r.state_identified i).distinct hk howner hown
  exact holder_iff_has.1 ((Store.holder_of_lock hk).trans hholder)

/-- When it returns its thread alone has the mutex, and stands in the owner word. -/
theorem BeginsWait.returns {woken : Bool}
    (hends : r.EndsWait (.wait c l timeout) t b i (.replied (.flag woken))) :
    (∀ u, r.Has l u (i + 1) ↔ u = t) ∧
      (r.state (i + 1)).store.lock l =
        some ⟨some t, (r.state (i + 1)).store.ids.own.get t⟩ := by
  obtain ⟨⟨p, hwait⟩, choice, hmove, hnotice⟩ := hends
  obtain ⟨s', hstep⟩ := ((hwait.advance choice).1 woken).1 hnotice
  have hback := (hwait.of_done .plain h.has hstep).1
  have howner := hback.owner (hwait.client hmove hstep)
  refine ⟨fun u => ⟨fun hu => ?_, fun hu => hu ▸ hback⟩, howner.2⟩
  exact Option.some.inj ((holder_iff_has.2 hu).symm.trans (holder_iff_has.2 hback))

/-- The platform refuses a second mutex after it has released it. -/
theorem BeginsWait.refused
    (hends : r.EndsWait (.wait c l timeout) t b i (.panicked .secondMutex)) :
    ((r.state b).store.conds.get c).backend? = some .native ∧
      (r.state (i + 1)).store.lock l = some .free ∧
      ∃! n, (b < n ∧ n ≤ i) ∧ r.Releases l t n := by
  obtain ⟨⟨p, hwait⟩, choice, hmove, hnotice⟩ := hends
  obtain ⟨s', hstep⟩ := ((hwait.advance choice).2 .secondMutex).1 hnotice
  obtain rfl := WaitPhase.refused_of_fault hstep
  obtain ⟨hsame, hbackend⟩ := hwait.backend .plain h.initialized
  have hreleases : r.Releases l t i := ⟨choice, hmove, by simp [hnotice], hwait.deed .plain⟩
  refine ⟨?_, ?_, existsUnique_release_iff.1 (once_of_first hwait.le
    (hwait.not_released .plain h.has hreleases) hreleases)⟩
  · rw [← h.store, ← hsame]
    exact (hbackend.resolve_left (by simp [WaitPhase.backend?])).symm
  · obtain ⟨outer, hget⟩ := List.head?_eq_some_iff.1 hwait.call?
    rw [state_succ, hmove, Machine.apply, Machine.advance_store choice hget, Call.Waiter.plain.step,
      hwait.step_refused .plain]
    simp [Progress.within, Progress.storeFrom, Store.lock, Store.setLock, Store.setMutex]

/-- The thread is in the code of no other mutex while it waits. -/
theorem BeginsWait.others (hk : k ≠ l) (hhas : r.Has k t b)
    (hspans : r.Spans (.wait c l timeout) t b i)
    (hinit : ∀ n, b ≤ n → n ≤ i → (r.state n).store.lock k ≠ none) : r.Has k t i := by
  obtain ⟨hbi, hwaits⟩ := hspans
  induction hbi with
  | refl => exact hhas
  | @step i hbi ih =>
    have hi : b ≤ i := hbi
    have hkept := ih (fun n hbn hni => hinit n hbn (Nat.le_succ_of_le hni))
      fun n hbn hni => hwaits n hbn (Nat.lt_succ_of_lt hni)
    refine hkept.succ (hinit (i + 1) (Nat.le_succ_of_le hi) (Nat.le_refl _)) ?_
    rcases Nat.lt_or_eq_of_le hi with hbi | rfl
    · obtain ⟨p, hwait⟩ := hwaits i hbi (Nat.lt_succ_self i)
      exact hwait.not_releases .plain hk
    · exact h.idle.not_releases

end

/-- Who releases the mutex is a waiter from then on, unless it is refused. -/
theorem InWait.waits_or_refused (h : r.InWait (.wait c l timeout) t (b + 1) i p)
    (hreleases : r.Releases l t i) :
    r.EndsWait (.wait c l timeout) t b i (.panicked .secondMutex) ∨
      (r.state (i + 1)).Waits c t .native ∨
        (r.state i).Waits c t .fallback ∧ (r.state (i + 1)).Waits c t .fallback := by
  rcases h.waits_of_release .plain hreleases with rfl | hwaits
  · obtain ⟨choice, hmove, -⟩ := hreleases
    exact .inl ⟨⟨_, h⟩, choice, hmove,
      ((h.advance choice).2 .secondMutex).2 ⟨_, h.step_refused .plain⟩⟩
  · exact .inr hwaits

/-! ## What a caller can rely on -/

/-- How a wait that thread `t` begins in move `b` treats the mutexes of the thread. -/
structure GivesBack (r : Run) (c : CondRef) (l : LockRef) (timeout : Option Duration) (t : Tid)
    (b : Nat) : Prop where
  /-- The wait goes on, or it ends: it returns, or the platform refuses a second mutex. The
  portable condition variable counts its sleepers in 30 bits. -/
  exits : (((r.state b).store.conds.get c).backend? = some .fallback → r.WithinLimit c) →
    ∀ i p, r.InWait (.wait c l timeout) t (b + 1) i p →
      (∃ p', r.InWait (.wait c l timeout) t (b + 1) (i + 1) p') ∨
        (∃ woken, r.EndsWait (.wait c l timeout) t b i (.replied (.flag woken))) ∨
          r.EndsWait (.wait c l timeout) t b i (.panicked .secondMutex)
  /-- It releases the mutex at most once, -/
  single : ∀ m n p q, r.InWait (.wait c l timeout) t (b + 1) m p →
    r.InWait (.wait c l timeout) t (b + 1) n q → r.Releases l t m → r.Releases l t n → m = n
  /-- and when it returns exactly once. -/
  once : ∀ i woken, r.EndsWait (.wait c l timeout) t b i (.replied (.flag woken)) →
    ∃! n, (b < n ∧ n ≤ i) ∧ r.Releases l t n
  /-- By then the thread has become a waiter, unless it is refused. -/
  waits : ∀ n p, r.InWait (.wait c l timeout) t (b + 1) n p → r.Releases l t n →
    r.EndsWait (.wait c l timeout) t b n (.panicked .secondMutex) ∨
      (r.state (n + 1)).Waits c t .native ∨
        (r.state n).Waits c t .fallback ∧ (r.state (n + 1)).Waits c t .fallback
  /-- From then on until it takes the mutex again, so all the time that it is parked, the thread
  does not have the mutex and does not stand in the owner word. -/
  away : ∀ i p, r.InWait (.wait c l timeout) t (b + 1) i p → p.leave = .away →
    ¬ r.Has l t i ∧
      ∀ k, (r.state i).store.lock l = some k → k.owner ≠ (r.state i).store.ids.own.get t
  /-- When the wait returns, woken or not, the thread alone has the mutex. -/
  returns : ∀ i woken, r.EndsWait (.wait c l timeout) t b i (.replied (.flag woken)) →
    (∀ u, r.Has l u (i + 1) ↔ u = t) ∧
      (r.state (i + 1)).store.lock l =
        some ⟨some t, (r.state (i + 1)).store.ids.own.get t⟩
  /-- Only the platform refuses a mutex. It has been released once and is free then. -/
  refused : ∀ i, r.EndsWait (.wait c l timeout) t b i (.panicked .secondMutex) →
    ((r.state b).store.conds.get c).backend? = some .native ∧
      (r.state (i + 1)).store.lock l = some .free ∧ ∃! n, (b < n ∧ n ≤ i) ∧ r.Releases l t n
  /-- Every other mutex that the thread has it keeps, as long as there is that mutex. -/
  others : ∀ k i, k ≠ l → r.Has k t b → r.Spans (.wait c l timeout) t b i →
    (∀ n, b ≤ n → n ≤ i → (r.state n).store.lock k ≠ none) → r.Has k t i
  identity : ∀ i, r.Spans (.wait c l timeout) t b i →
    (r.state i).store.ids.own.get t = (r.state b).store.ids.own.get t ∧
      (r.state b).store.ids.own.get t ≠ .nobody

/-- In every run, a wait on an initialized condition variable by a thread that has the mutex gives
the mutex up once, and gives it back. -/
theorem mutex_given_back (hbegin : r.move b = .begin t (.waiting c l timeout))
    (hcond : ((r.state b).store.conds.get c).isInitialized = true) (hhas : r.Has l t b) :
    r.GivesBack c l timeout t b :=
  have h := beginsWait hbegin hcond hhas
  { exits := fun hlimit _ _ => h.exits hlimit
    single := fun _ _ _ _ => h.release_unique
    once := fun _ _ => h.released_once
    waits := fun _ _ => InWait.waits_or_refused
    away := fun _ _ => h.away
    returns := fun _ _ => h.returns
    refused := fun _ => h.refused
    others := fun _ _ => h.others
    identity := fun _ hspans => ⟨h.identity hspans.1, h.own⟩ }

/-- Thread 0 waits in the platform's queue for no time at all. -/
def timedOut : Run :=
  ofList
    ([.create (.mutex true), .create .condition, .begin 0 (.initCond 1 .native)] ++ steps 0 1 ++
      .begin 0 (.locking 0) :: steps 0 4 ++ .begin 0 (.waiting 1 0 (some .zero)) :: steps 0 10)
    (by decide +kernel)

/-- It is not woken, and has the mutex again. -/
theorem mutex_given_back_timedOut :
    ((timedOut.state 9).store.conds.get 1).isInitialized = true ∧ timedOut.Has 0 0 9 ∧
      timedOut.GivesBack 1 0 (some .zero) 0 9 ∧
      ((timedOut.state 19).advance 0 ⟨0, false⟩).2 = .replied (.flag false) :=
  have hcond : ((timedOut.state 9).store.conds.get 1).isInitialized = true := by decide +kernel
  have hhas : timedOut.Has 0 0 9 := holder_iff_has.1 (by decide +kernel)
  ⟨hcond, hhas, mutex_given_back rfl hcond hhas, by decide +kernel⟩

end Run

end Interlock
