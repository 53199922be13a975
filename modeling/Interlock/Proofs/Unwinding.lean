import Interlock.Proofs.Exclusion
import Interlock.Proofs.Depth
import Interlock.Script.Step

/-!
# What a panic meets on its way

While a thread unwinds, the guards and the unlocked sections that it is in come to their ends, and
objects are destroyed. Two families of destructors treat a violation differently: those of objects
only log it, so that the panic goes on; the end of a guard or of a section panics again, and that
ends the process.

  * `Store.findings`: what the destructors that run with an object find wrong,
    `Store.FoundByState`: which state of the object that comes from, and `Machine.Finds`: what comes
    of it;
  * `Call.of_abort`: the only steps that end the process;
  * `Run.lock_of_within`: a guard or a section does not lose its mutex;
  * `Run.Drops`, `Run.Rejoins`: a panic ends a guard or a section. Nothing else lets a panic be
    pending in the code of a mutex (`Run.exists_enters`);
  * `Run.aborts_iff`: the process ends exactly if the mutex of the guard is not had, or that of the
    section is.

To end the process takes a panic while another one is pending. A panic is pending in the code of a
mutex only after the body of a guard or a section has ended by it, and from there to the end of the
call only code of locking or unlocking runs, whose checks are decided by who has the mutex. So what
comes of the panic is settled when the body ends.
-/

namespace Interlock

/-! ## Destructors of objects

A destructor may run others: that of a gate runs that of its mutex, that of a monitor runs those of
its parts. `findings` is the list of what they find, and `Reports` what a run of destructors does
with such a list; it composes (`Reports.then`), so the destructor of a whole reports what those of
its parts find, in their order. -/

namespace Store

/-- What the destructors that run with an object find wrong, in their order. -/
def findings (s : Store) : Object → List Violation
  | .mutex l => (s.locks.get l).dropViolation.toList
  | .condition c => (s.conds.get c).dropViolation.toList
  | .once o => (s.locks.get (s.onces.get o).lock).dropViolation.toList
  | .monitor mo =>
    let monitor := s.monitors.get mo
    (if s.lockUsers.get monitor.lock ≤ 1 then (s.locks.get monitor.lock).dropViolation.toList
      else []) ++ (s.conds.get monitor.cond).dropViolation.toList
  | .semaphore _ | .events _ => []
  | .thread r => (s.threads.get r).dropViolation.toList

/-- What the destructors that run with each object find, told by the state that the object is in. -/
structure FoundByState (s : Store) : Prop where
  /-- A mutex has to be initialized, and unlocked. -/
  mutex : ∀ l, s.lock l = none ∧ s.findings (.mutex l) = [.mutexNeverInitialized] ∨
    ∃ k, s.lock l = some k ∧
      (k.isLocked = true ∧ s.findings (.mutex l) = [.mutexDroppedHeld k.owner] ∨
        k.isLocked = false ∧ s.findings (.mutex l) = [])
  /-- Only the portable protocol knows who is inside. It has to have no sleepers, no wakeup in
  progress, and its gate open. -/
  portable : ∀ c f, s.conds.get c = .fallback f →
    (f.sleepers = 0 ∧ f.mode = 0 ∧ f.gate.available = 1) ∧ s.findings (.condition c) = [] ∨
      ¬ (f.sleepers = 0 ∧ f.mode = 0 ∧ f.gate.available = 1) ∧
        s.findings (.condition c) = [.conditionDropped f]
  condition : ∀ c, (∀ f, s.conds.get c ≠ .fallback f) → s.findings (.condition c) = []
  /-- A gate goes away with its mutex, -/
  once : ∀ o, s.findings (.once o) = s.findings (.mutex (s.onces.get o).lock)
  /-- and a monitor with its condition variable, after its mutex if nobody else uses that. -/
  monitor : ∀ mo, s.findings (.monitor mo) =
    (if s.lockUsers.get (s.monitors.get mo).lock ≤ 1 then
      s.findings (.mutex (s.monitors.get mo).lock) else []) ++
    s.findings (.condition (s.monitors.get mo).cond)
  semaphore : ∀ r, s.findings (.semaphore r) = []
  events : ∀ e, s.findings (.events e) = []
  /-- A thread object is not to be running. -/
  thread : ∀ r, (s.threads.get r).state = .running ∧
      s.findings (.thread r) = [.threadDroppedRunning (s.threads.get r).id] ∨
    (s.threads.get r).state ≠ .running ∧ s.findings (.thread r) = []

/-- The word is zero where both of its fields are. -/
theorem isQuiescent_iff (f : Fallback) :
    f.isQuiescent = true ↔ f.sleepers = 0 ∧ f.mode = 0 ∧ f.gate.available = 1 := by
  have hword : f.word = 0 ↔ f.word.toNat = 0 := UInt32.toNat_inj.symm
  simp only [Fallback.isQuiescent, Fallback.modeNone, Bool.and_eq_true, beq_iff_eq, hword,
    Fallback.sleepers, Fallback.sleepersOf, Fallback.mode, Fallback.modeBits,
    Fallback.sleepersLimit]
  omega

/-- The destructor of a portable condition variable looks at the word and at the gate. -/
theorem findings_condition {s : Store} {c : CondRef} {f : Fallback}
    (h : s.conds.get c = .fallback f) :
    s.findings (.condition c) = if f.isQuiescent then [] else [.conditionDropped f] := by
  simp only [findings, h, Condition.dropViolation]
  cases f.isQuiescent <;> rfl

/-- In every store, what destructors find is told by the states of the objects. -/
theorem foundByState (s : Store) : s.FoundByState where
  mutex := by
    intro l
    rw [findings, Mutex.dropViolation, lock]
    -- a mutex is uninitialized, free or locked
    cases hk : (s.locks.get l).state with
    | none => exact .inl ⟨rfl, rfl⟩
    | some k => cases hlocked : k.isLocked <;> simp [hlocked]
  portable := by
    intro c f hf
    rw [← isQuiescent_iff, findings_condition hf]
    cases f.isQuiescent <;> simp
  condition := by
    intro c hnot
    rw [findings]
    cases hc : s.conds.get c with
    | fallback f => exact absurd hc (hnot f)
    | raw | native => rfl
  once _ := rfl
  monitor _ := rfl
  semaphore _ := rfl
  events _ := rfl
  thread := by
    intro r
    rw [findings, Thread.dropViolation, Thread.running]
    cases hstate : (s.threads.get r).state <;> simp

variable {s : Store}

/-- What has been found is in the log, the latest first, and the first of it is the panic unless
the thread unwinds already. -/
structure Reports (s : Store) (unwinding : Bool) (found : List Violation)
    (left : Store × Option Panic) : Prop where
  log : left.1.log = (found.map Record.violation).reverse ++ s.log
  panic : left.2 = if unwinding then none else found.head?.map Panic.violation

theorem reportDrop_reports (s : Store) (unwinding : Bool) (v : Option Violation) :
    s.Reports unwinding v.toList (s.reportDrop unwinding v) := by
  cases v <;> cases unwinding <;> exact ⟨rfl, rfl⟩

theorem destroyMutex_reports (s : Store) (l : LockRef) (unwinding : Bool) :
    s.Reports unwinding (s.locks.get l).dropViolation.toList (s.destroyMutex l unwinding) :=
  ⟨(reportDrop_reports _ unwinding _).log, (reportDrop_reports _ unwinding _).panic⟩

theorem destroyCond_reports (s : Store) (c : CondRef) (unwinding : Bool) :
    s.Reports unwinding (s.conds.get c).dropViolation.toList (s.destroyCond c unwinding) :=
  ⟨(reportDrop_reports _ unwinding _).log, (reportDrop_reports _ unwinding _).panic⟩

/-- The second of two destructors runs while the panic of the first unwinds. -/
theorem Reports.then {s s₁ s₂ : Store} {unwinding : Bool} {found found' : List Violation}
    {first second : Option Panic} (h : s.Reports unwinding found (s₁, first))
    (h' : s₁.Reports (unwinding || first.isSome) found' (s₂, second)) :
    s.Reports unwinding (found ++ found') (s₂, first.or second) := by
  obtain ⟨hlog, hfirst⟩ := h
  obtain ⟨hlog', hsecond⟩ := h'
  simp only at hlog hfirst hlog' hsecond
  constructor
  · simp only [hlog, hlog', List.map_append, List.reverse_append, List.append_assoc]
  · subst hfirst
    cases unwinding <;> cases found <;> simp_all

/-- The mutex goes away with its last user only. -/
theorem releaseShare_reports (s : Store) (l : LockRef) (unwinding : Bool) :
    s.Reports unwinding
      (if s.lockUsers.get l ≤ 1 then (s.locks.get l).dropViolation.toList else [])
      (s.releaseShare l unwinding) := by
  unfold releaseShare
  dsimp only
  split
  · have hmutex := destroyMutex_reports
      { s with lockUsers := s.lockUsers.set l (s.lockUsers.get l - 1) } l unwinding
    exact ⟨hmutex.log, hmutex.panic⟩
  · exact ⟨rfl, by cases unwinding <;> rfl⟩

/-- The destructor of a monitor reports what is wrong with its mutex, if that goes away, and then
what is wrong with its condition variable. -/
theorem destroyMonitor_reports (s : Store) (mo : MonitorRef) (unwinding : Bool) :
    s.Reports unwinding (s.findings (.monitor mo)) (s.destroyMonitor mo unwinding) := by
  have hshare := s.releaseShare_reports (s.monitors.get mo).lock unwinding
  have hsame : (s.releaseShare (s.monitors.get mo).lock unwinding).1.conds = s.conds := by
    unfold releaseShare
    dsimp only
    split
    · rw [destroyMutex_fst]
      rfl
    · rfl
  unfold destroyMonitor
  dsimp only
  generalize s.releaseShare (s.monitors.get mo).lock unwinding = left at hshare hsame ⊢
  obtain ⟨s', first⟩ := left
  have hcond := s'.destroyCond_reports (s.monitors.get mo).cond (unwinding || first.isSome)
  rw [hsame] at hcond
  exact hshare.then hcond

/-- The destructor of any object reports its findings. -/
theorem destroy_reports (s : Store) (object : Object) (unwinding : Bool) :
    s.Reports unwinding (s.findings object) (s.destroy object unwinding) := by
  cases object with
  | mutex l => exact s.destroyMutex_reports l unwinding
  | condition c => exact s.destroyCond_reports c unwinding
  | once o => exact s.destroyMutex_reports _ unwinding
  | monitor mo => exact s.destroyMonitor_reports mo unwinding
  | semaphore r => exact s.reportDrop_reports unwinding none
  | events e => exact s.reportDrop_reports unwinding none
  | thread r => exact s.reportDrop_reports unwinding _

end Store

/-- What comes of a step in which thread `t` destroys an object with these findings. -/
structure Machine.Finds (m : Machine) (t : Tid) (choice : Choice) (unwinding : Bool)
    (found : List Violation) : Prop where
  /-- Each of them is reported once. -/
  log : (m.advance t choice).1.store.log = (found.map Record.violation).reverse ++ m.store.log
  silent : unwinding = true ∨ found = [] → (m.advance t choice).2 = .replied .nothing
  /-- The first of them is the panic. -/
  panics : unwinding = false → ∀ v rest, found = v :: rest →
    (m.advance t choice).2 = .panicked (.violation v)

/-- A thread that runs a destructor learns of the first finding, unless it unwinds. -/
theorem Machine.finds_of_destroy {m : Machine} {t : Tid} {o : Object} {unwinding : Bool}
    {outer : List Call} (hget : m.calls.get t = .destroy o unwinding :: outer) (choice : Choice) :
    m.Finds t choice unwinding (m.store.findings o) := by
  obtain ⟨hlog, hpanic⟩ := m.store.destroy_reports o unwinding
  have hadvance : m.advance t choice = (⟨(m.store.destroy o unwinding).1, m.calls.set t outer⟩,
      (m.store.destroy o unwinding).2.elim (.replied .nothing) .panicked) := by
    simp only [advance, hget, Call.step, Call.single, destroyStep]
    obtain ⟨s', _ | why⟩ := m.store.destroy o unwinding <;> rfl
  constructor
  case log => rw [hadvance, hlog]
  case silent =>
    rintro (rfl | hfound)
    · rw [hadvance, hpanic]
      rfl
    · rw [hadvance, hpanic, hfound]
      cases unwinding <;> rfl
  case panics =>
    rintro rfl v rest hfound
    rw [hadvance, hpanic, hfound]
    rfl

/-- The panic of a client that destroys an object on its way goes on as it was. -/
theorem World.panic_goes_on {w : World} {t : Tid} {p : Pending} {outer : List Frame} {why : Panic}
    {o : Object} {rest : List Call} (hfocus : (w.agent t).focus = .calling)
    (hframes : (w.agent t).frames = .call p :: outer) (hp : p.continuation = .panicking why)
    (hget : w.machine.calls.get t = .destroy o true :: rest) (choice : Choice) :
    ((w.step t choice).1.agent t).focus = .raise why ∧
      ((w.step t choice).1.agent t).frames = outer ∧
      (w.step t choice).1.aborted = w.aborted := by
  have hsilent := (Machine.finds_of_destroy hget choice).silent (.inl rfl)
  have hstep : w.step t choice = ({ w with machine := (w.machine.advance t choice).1 }.replied t p
      outer .nothing, .moved) := by
    simp only [step, hfocus, hframes]
    rw [show w.machine.advance t choice = ((w.machine.advance t choice).1, .replied .nothing) by
      rw [← hsilent]]
    rfl
  rw [hstep]
  simp [replied, hp, raise, focusOn, setFrames, setAgent, agent]

/-! ## Steps that end the process

The process ends when a thread that unwinds panics again. Few steps run with a panic pending, and
`Survives` sorts out all the others: what remains are steps of locking and unlocking inside a guard,
a gate or a section (`Call.of_abort`). -/

namespace Progress

variable {φ ψ ρ τ : Type} {p : Progress φ ρ}

/-- The step does not end the process. -/
def Survives (p : Progress φ ρ) : Prop := ∀ s, p ≠ .abort s

theorem survives_next {s : Store} {phase : φ} : (next s phase : Progress φ ρ).Survives := by
  intro _ h
  cases h

theorem survives_done {s : Store} {reply : ρ} : (done s reply : Progress φ ρ).Survives := by
  intro _ h
  cases h

/-- If the whole ends the process, its part does. -/
theorem abort_of_within {wrap : φ → ψ} {finish : Store → ρ → Progress ψ τ} {s' : Store}
    (hfinish : ∀ s r, (finish s r).Survives) (h : p.within wrap finish = .abort s') :
    p = .abort s' := by
  cases p with
  | done s r => exact absurd h (hfinish s r s')
  | abort s =>
    cases h
    rfl
  | _ => cases h

theorem Survives.within {wrap : φ → ψ} {finish : Store → ρ → Progress ψ τ} (h : p.Survives)
    (hfinish : ∀ s r, (finish s r).Survives) : (p.within wrap finish).Survives :=
  fun s' habort => h s' (abort_of_within hfinish habort)

/-- What ends the process is a violation while a panic is pending. -/
theorem of_abort {wrap : φ → ψ} {reply : τ} {pending : Option Panic} {s' : Store}
    (hp : p.Survives)
    (h : ((p.whileUnwinding pending).within wrap fun s _ => .passOn s reply pending) = .abort s') :
    ∃ why v, pending = some why ∧ p = .fault s' v := by
  cases pending with
  | none =>
    have hsurvives : (p.within wrap fun s _ => (.done s reply : Progress ψ τ)).Survives :=
      hp.within fun _ _ => survives_done
    exact absurd h (hsurvives s')
  | some why =>
    cases p with
    | fault s v =>
      cases h
      exact ⟨why, v, rfl, rfl⟩
    | abort s => exact absurd rfl (hp s)
    | _ => cases h

end Progress

variable {t : Tid} {l : LockRef} {s : Store} {choice : Choice}

/-- Locking panics at worst. -/
theorem LockPhase.step_survives (p : LockPhase) : (p.step t l s).Survives := by
  cases p <;> simp only [step, Store.violate, Store.withLock] <;> (repeat' split) <;>
    (intro _ h; cases h)

/-- So does unlocking. -/
theorem UnlockPhase.step_survives (p : UnlockPhase) : (p.step t l s).Survives := by
  cases p <;> simp only [step, Store.violate, Store.withLock] <;> (repeat' split) <;>
    (intro _ h; cases h)

/-- So does a wakeup. -/
theorem WakeupPhase.step_survives {c : CondRef} {event : WakeEvent} (p : WakeupPhase) :
    (p.step c event choice s).Survives := by
  cases p <;> simp only [step, Store.violate, Store.withNative, Store.withFallback] <;>
    (repeat' split) <;> (intro _ h; cases h)

/-- So does a native wait. -/
theorem NativeWaitPhase.step_survives {c : CondRef} {timeout : Option Duration}
    (p : NativeWaitPhase) : (p.step t c l timeout s).Survives := by
  cases p <;> simp only [step, Store.violate, Store.withNative, Store.withLock] <;>
    (repeat' split) <;> (intro _ h; cases h)

/-- So does a portable wait: no panic is pending while it unlocks and locks. -/
theorem FallbackWaitPhase.step_survives {c : CondRef} {timeout : Option Duration}
    (p : FallbackWaitPhase) : (p.step t c l timeout s).Survives := by
  cases p with
  | unlocking p => exact p.step_survives.within fun _ _ => Progress.survives_next
  | locking p wokenBy => exact p.step_survives.within fun _ _ => Progress.survives_done
  | _ =>
    simp only [step, Store.violate, Store.withFallback, afterDeparture]
    (repeat' split) <;> (intro _ h; cases h)

/-- So does a wait with its checks. -/
theorem WaitPhase.step_survives {c : CondRef} {timeout : Option Duration} (p : WaitPhase) :
    (p.step t c l timeout s).Survives := by
  cases p with
  | native p => exact p.step_survives.within fun _ _ => Progress.survives_done
  | fallback p => exact p.step_survives.within fun _ _ => Progress.survives_done
  | _ =>
    simp only [step, Store.violate, Store.withLock]
    (repeat' split) <;> (intro _ h; cases h)

/-- So does a loop of them. -/
theorem WaitWhilePhase.step_survives {c : CondRef} {timeout : Option Duration}
    (p : WaitWhilePhase) : (p.step t c l timeout s).Survives := by
  cases p with
  | waiting start rest p => exact p.step_survives.within fun _ _ => Progress.survives_next
  | _ =>
    simp only [step]
    (repeat' split) <;> (intro _ h; cases h)

theorem AcquirePhase.step_survives {r : SemaphoreRef} (p : AcquirePhase) :
    (p.step t r s).Survives := by
  cases p <;> simp only [step, attemptStep] <;> (repeat' split) <;> (intro _ h; cases h)

theorem ReleasePhase.step_survives {r : SemaphoreRef} (p : ReleasePhase) :
    (p.step r choice s).Survives := by
  cases p <;> simp only [step, Store.violate] <;> (repeat' split) <;> (intro _ h; cases h)

theorem ListenPhase.step_survives {e : EventsRef} {timeout : Option Duration} (p : ListenPhase) :
    (p.step t e timeout s).Survives := by
  cases p <;> simp only [step, look] <;> (repeat' split) <;> (intro _ h; cases h)

theorem StartPhase.step_survives {r : ThreadRef} (p : StartPhase) :
    (p.step t r choice s).Survives := by
  cases p <;> simp only [step, Store.violate] <;> (repeat' split) <;> (intro _ h; cases h)

theorem JoinPhase.step_survives {r : ThreadRef} (p : JoinPhase) : (p.step t r s).Survives := by
  cases p <;> simp only [step, finish, takeRunning, Store.violate] <;> (repeat' split) <;>
    (intro _ h; cases h)

/-- A call that runs no body while it has a mutex, or has given one up, does not end the
process. -/
theorem Call.step_survives {call : Call} (hscope : ∀ l p, call ≠ .scope l p)
    (hunlocked : ∀ l p, call ≠ .unlocked l p) (honce : ∀ o p, call ≠ .once o p) :
    (call.step t choice s).Survives := by
  have single {ρ : Type} {reply : ρ → Reply} {p : Progress Call ρ} (hp : p.Survives) :
      (single reply p).Survives :=
    hp.within fun _ _ => Progress.survives_done
  cases call with
  | scope l p => exact absurd rfl (hscope l p)
  | unlocked l p => exact absurd rfl (hunlocked l p)
  | once o p => exact absurd rfl (honce o p)
  | lock | unlock | wakeup | wait | waitWhile | acquire | release | listen | start | join =>
    rename_i p
    exact p.step_survives.within fun _ _ => Progress.survives_done
  | setEvent e event p => cases p <;> (intro _ h; cases h)
  | initMutex l =>
    refine single ?_
    simp only [initMutexStep, Store.violate]
    split <;> (intro _ h; cases h)
  | initCond c backend =>
    refine single ?_
    simp only [initCondStep, Store.violate]
    split <;> (intro _ h; cases h)
  | tryAcquire r =>
    refine single ?_
    simp only [tryAcquireStep]
    split <;> (intro _ h; cases h)
  | install id =>
    refine single ?_
    simp only [installStep, Store.violate]
    split <;> (intro _ h; cases h)
  | detach r =>
    refine single ?_
    simp only [detachStep, takeRunning, Store.violate]
    split <;> (intro _ h; cases h)
  | destroy object unwinding =>
    refine single ?_
    simp only [destroyStep]
    split <;> (intro _ h; cases h)
  | resetEvent | configure | currentId | setName => intro _ h; cases h

/-- The panic that is pending while code of a mutex runs. -/
def LockPart.pending? : LockPart → Option Panic
  | locking _ pending | unlocking _ pending => pending
  | _ => none

/-- A wait has no panic pending while it works on its mutex. -/
theorem FallbackWaitPhase.part_pending (p : FallbackWaitPhase) : p.part.pending? = none := by
  cases p <;> rfl

/-- The same with its checks. -/
theorem WaitPhase.part_pending (c : CondRef) (timeout : Option Duration) (p : WaitPhase) :
    (p.part c timeout).pending? = none := by
  cases p with
  | fallback p => exact p.part_pending
  | _ => rfl

/-- The same in a loop. -/
theorem WaitWhilePhase.part_pending (c : CondRef) (p : WaitWhilePhase) :
    (p.part c).pending? = none := by
  cases p with
  | waiting start rest p => exact p.part_pending c rest
  | _ => rfl

/-- A step ends the process only if it finds a violation in code of a mutex while a panic is
pending. -/
theorem Call.of_abort {call : Call} {s' : Store} (h : call.step t choice s = .abort s') :
    ∃ l why v, (∃ p, call.part l s = .unlocking p (some why) ∧ p.step t l s = .fault s' v) ∨
      ∃ p, call.part l s = .locking p (some why) ∧ p.step t l s = .fault s' v := by
  -- the three calls that run a body differ from others only at their ends
  have lift {φ ρ : Type} {call : φ → Call} {reply : ρ → Reply} {p : Progress φ ρ}
      (hp : lift call reply p = .abort s') : p = .abort s' :=
    Progress.abort_of_within (fun _ _ => Progress.survives_done) hp
  cases call with
  | scope l p =>
    cases p with
    | locking p =>
      have hstep := Progress.abort_of_within (fun _ _ => Progress.survives_next) (lift h)
      exact absurd hstep (p.step_survives s')
    | body => cases h
    | unlocking p pending =>
      obtain ⟨why, v, rfl, hp⟩ := Progress.of_abort p.step_survives (lift h)
      exact ⟨l, why, v, .inl ⟨p, if_pos rfl, hp⟩⟩
  | unlocked l p =>
    cases p with
    | unlocking p =>
      have hstep := Progress.abort_of_within (fun _ _ => Progress.survives_next) (lift h)
      exact absurd hstep (p.step_survives s')
    | body => cases h
    | relocking p pending =>
      obtain ⟨why, v, rfl, hp⟩ := Progress.of_abort p.step_survives (lift h)
      exact ⟨l, why, v, .inr ⟨p, if_pos rfl, hp⟩⟩
  | once o p =>
    cases p with
    | locking p =>
      have hstep := Progress.abort_of_within (fun _ _ => Progress.survives_next) (lift h)
      exact absurd hstep (p.step_survives s')
    | unlocking p finish =>
      obtain ⟨why, v, hfinish, hp⟩ := Progress.of_abort p.step_survives (lift h)
      exact ⟨(s.onces.get o).lock, why, v, .inl ⟨p, by simp [part, OncePhase.part, hfinish], hp⟩⟩
    | _ =>
      have hstep := lift h
      simp only [OncePhase.step] at hstep
      (repeat' split at hstep) <;> cases hstep
  | _ => exact absurd h (step_survives (by simp) (by simp) (by simp) s')

/-! ## Guards and sections do not lose their mutex

Unlocking or locking a mutex fails for a second reason: it is not initialized. That does not happen
at the end of a guard or of a section, because it has worked on the mutex all the time, so the mutex
has not been destroyed. What remains is the comparison of the owner word. -/

/-- Whether a call that runs a body between two steps of mutex `l` is past the first of them. -/
def Call.isWithin (l : LockRef) (s : Store) : Call → Bool
  | scope k p => k = l && p != .locking .entry
  | unlocked k p => k = l && p != .unlocking .entry
  | once o p => (s.onces.get o).lock = l && p != .fast && p != .locking .entry
  | _ => false

namespace Call

variable {call call' : Call} {why : Panic}

theorem mem_objects_of_within (h : call.isWithin l s = true) : .mutex l ∈ call.objects s := by
  cases call <;> simp_all [isWithin, objects]

/-- Only the end of a guard's scope, of a gate or of an unlocked section has a panic pending. -/
theorem of_pending (h : (call.part l s).pending? = some why) :
    (∃ p, call = .scope l (.unlocking p (some why))) ∨
      (∃ o p, (s.onces.get o).lock = l ∧ call = .once o (.unlocking p (.panicked why))) ∨
      ∃ p, call = .unlocked l (.relocking p (some why)) := by
  -- the part of another mutex's code is `aside`, which has nothing pending
  have hif {k : LockRef} {part : LockPart}
      (h : (if k = l then part else .aside).pending? = some why) :
      k = l ∧ part.pending? = some why := by
    split at h
    · exact ⟨‹_›, h⟩
    · cases h
  cases call with
  | scope k p =>
    obtain ⟨rfl, hp⟩ := hif h
    cases p <;> cases hp
    exact .inl ⟨_, rfl⟩
  | unlocked k p =>
    obtain ⟨rfl, hp⟩ := hif h
    cases p <;> cases hp
    exact .inr (.inr ⟨_, rfl⟩)
  | once o p =>
    obtain ⟨hgate, hp⟩ := hif h
    cases p with
    | unlocking p finish =>
      cases finish <;> cases hp
      exact .inr (.inl ⟨o, p, hgate, rfl⟩)
    | _ => cases hp
  | lock k p => cases (hif h).2
  | unlock k p => cases (hif h).2
  | wait c k timeout p => cases (WaitPhase.part_pending c timeout p).symm.trans (hif h).2
  | waitWhile c k timeout p => cases (WaitWhilePhase.part_pending c p).symm.trans (hif h).2
  | _ => cases h

/-- A call with a panic pending in code of a mutex is between the two steps. -/
theorem within_of_pending (h : (call.part l s).pending? = some why) :
    call.isWithin l s = true := by
  obtain ⟨p, rfl⟩ | ⟨o, p, hgate, rfl⟩ | ⟨p, rfl⟩ := of_pending h
  · simp [isWithin]
  · simp [isWithin, hgate]
  · simp [isWithin]

/-- A call comes to be within its two steps only by seeing the mutex initialized. -/
theorem within_of_next {s' : Store} (h : call.step t choice s = .next s' call')
    (hwithin : call'.isWithin l s' = true) :
    call.isWithin l s = true ∨ .mutex l ∈ call.objects s ∧ s.lock l ≠ none := by
  have hkind := origin_of_step h
  cases call with
  | scope k p =>
    obtain ⟨p', hp, rfl⟩ := Progress.next_of_lift h
    simp only [isWithin, Bool.and_eq_true, decide_eq_true_eq, bne_iff_ne] at hwithin ⊢
    obtain ⟨rfl, hp'⟩ := hwithin
    -- only the step out of the entry is new, and it is the one that checks the mutex
    by_cases hentry : p = .locking .entry
    · subst hentry
      simp only [ScopePhase.step, LockPhase.step, Store.violate] at hp
      split at hp
      · cases hp
      · exact .inr ⟨List.mem_cons_self, by simpa using ‹¬ (s.lock k).isNone = true›⟩
    · exact .inl ⟨rfl, hentry⟩
  | unlocked k p =>
    obtain ⟨p', hp, rfl⟩ := Progress.next_of_lift h
    simp only [isWithin, Bool.and_eq_true, decide_eq_true_eq, bne_iff_ne] at hwithin ⊢
    obtain ⟨rfl, hp'⟩ := hwithin
    by_cases hentry : p = .unlocking .entry
    · subst hentry
      simp only [UnlockedPhase.step, UnlockPhase.step, Store.violate] at hp
      split at hp
      · cases hp
      · exact .inr ⟨List.mem_cons_self, by simpa using ‹¬ (s.lock k).isNone = true›⟩
    · exact .inl ⟨rfl, hentry⟩
  | once o p =>
    obtain ⟨p', hp, rfl⟩ := Progress.next_of_lift h
    have hgate := (Machine.frame_of_next h).gates o
    simp only [isWithin, Bool.and_eq_true, decide_eq_true_eq, bne_iff_ne, hgate] at hwithin ⊢
    obtain ⟨⟨rfl, hfast'⟩, hentry'⟩ := hwithin
    by_cases hfast : p = .fast
    · subst hfast
      simp only [OncePhase.step] at hp
      split at hp <;> cases hp
      exact absurd rfl hentry'
    · by_cases hentry : p = .locking .entry
      · subst hentry
        simp only [OncePhase.step, LockPhase.step, Store.violate] at hp
        split at hp
        · cases hp
        · rename_i hinit
          exact .inr ⟨by simp [objects], by simpa using hinit⟩
      · exact .inl ⟨⟨rfl, hfast⟩, hentry⟩
  | _ => cases call' <;> first | cases hwithin | cases hkind

theorem within_of_resume {e : BodyEnd} (h : call.atBody = true)
    (hwithin : (call.resume e).isWithin l s = true) : call.isWithin l s = true := by
  unfold atBody at h
  split at h <;> simp_all [resume, isWithin, WaitWhilePhase.resume]

/-- Whether a call is between the two steps depends on the store only through the mutex of a
gate. -/
theorem within_congr {m : Machine} {s' : Store} (hknown : m.knows call = true)
    (hgates : ∀ o < m.store.nextHandle, (s'.onces.get o).lock = (m.store.onces.get o).lock) :
    call.isWithin l s' = call.isWithin l m.store := by
  cases call with
  | once o p =>
    have ho : o < m.store.nextHandle := handle_lt_of_knows hknown List.mem_cons_self
    simp only [isWithin, hgates o ho]
  | _ => rfl

end Call

namespace Run

variable {r : Run} {i n : Nat}

/-- A guard or a section finds its mutex initialized when it ends. -/
theorem lock_of_within (r : Run) (n : Nat) : ∀ {call : Call}, call ∈ (r.state n).calls.get t →
    call.isWithin l (r.state n).store = true → (r.state n).store.lock l ≠ none := by
  induction n with
  | zero =>
    intro _ hcall
    cases hcall
  | succ n ih =>
    intro call' hcall' hwithin'
    have hchange := r.state_change n
    have hsound := r.state_sound n
    have hstays {call : Call} (hcall : call ∈ (r.state n).calls.get t)
        (hwithin : call.isWithin l (r.state n).store = true) :
        (r.state (n + 1)).store.lock l ≠ none :=
      lock_stays_of_mem hcall (Call.mem_objects_of_within hwithin) (ih hcall hwithin)
    -- nobody destroys the mutex of a call in progress, so only a call that has just come to be
    -- within its two steps is new, and that has seen the mutex
    obtain ⟨d, hd⟩ := Machine.exists_frame_of_mem hcall'
    cases hchange.turned hsound hd with
    | kept hframe =>
      have hcall := Machine.mem_of_frame hframe
      exact hstays hcall
        (Call.within_congr (hsound.known t _ hcall) hchange.handles.2 ▸ hwithin')
    | begun _ hfresh =>
      cases call' <;> simp_all [Call.isFresh, Call.isWithin]
    | resumed _ hget hbody _ hcall hstore =>
      subst hcall
      rw [hstore] at hwithin'
      exact hstays (hget ▸ List.mem_cons_self) (Call.within_of_resume hbody hwithin')
    | next _ hget _ hstep =>
      have hcall := hget ▸ List.mem_cons_self
      rcases Call.within_of_next hstep hwithin' with hwithin | ⟨hmem, hinit⟩
      · exact hstays hcall hwithin
      · exact lock_stays_of_mem hcall hmem hinit
    | born _ hcall =>
      subst hcall
      cases hwithin'

end Run

/-! ## The ends of guards and sections

What the main result speaks of is told by the history: a panic leaves a body, and its thread takes
two steps more. In the first of them it reads its identity, in the second it compares. -/

/-- A call that has a guard of mutex `l` while it runs its body. -/
inductive Call.Guards (l : LockRef) (s : Store) : Call → Prop
  | scope : Guards l s (.scope l .body)
  | once {o : OnceRef} (hgate : (s.onces.get o).lock = l) : Guards l s (.once o .callback)

/-- Whether code of a mutex has yet to compare the owner word with its thread's identity. -/
def LockPart.isChecking : LockPart → Bool
  | locking .entry _ | locking (.check _) _ | unlocking .entry _ | unlocking (.check _) _ => true
  | _ => false

namespace Run

section

variable (r : Run) (l : LockRef) (t : Tid)

/-- In move `i` a panic leaves the code that thread `t` runs with a guard of mutex `l`, and the
guard is dropped. -/
def Drops (i : Nat) : Prop :=
  ∃ why call, r.move i = .endBody t (.panicked why) ∧ (r.state i).call? t = some call ∧
    call.Guards l (r.state i).store

/-- In move `i` a panic leaves the code that thread `t` runs with mutex `l` unlocked, and the
section ends. -/
def Rejoins (i : Nat) : Prop :=
  ∃ why, r.move i = .endBody t (.panicked why) ∧
    (r.state i).call? t = some (.unlocked l .body)

/-- Move `n` is the second step of thread `t` after move `i`. -/
def Second (i n : Nat) : Prop :=
  ∃ a first second, r.NextStep t (i + 1) a first ∧ r.NextStep t (a + 1) n second

/-- The process ends in move `n`, a step of thread `t`. -/
def Aborts (n : Nat) : Prop :=
  ∃ choice, r.move n = .advance t choice ∧ ((r.state n).advance t choice).2 = .aborted

end

variable {r : Run} {i n : Nat} {why : Panic} {has : Prop} {me : ThreadId} {part : LockPart}

/-- Nothing stops a thread before it has compared the owner word. -/
theorem At.not_blocked (h : r.At l t part has n) (hpart : part.isChecking = true)
    (choice : Choice) : ((r.state n).advance t choice).2 ≠ .blocked := by
  have haside : part ≠ .aside := by
    rintro rfl
    cases hpart
  obtain ⟨call, outer, hget, hcode⟩ := h.exists_call haside
  obtain ⟨k, hk⟩ := Option.ne_none_iff_exists'.1 h.initialized
  rw [ne_eq, Machine.advance_blocked hget]
  -- a check either passes or faults; what the call makes of a fault does not block either
  have hgoes {φ : Type} {wrap : φ → Call} {p : Progress φ Unit} {pending : Option Panic}
      (hcarries : (call.step t choice (r.state n).store).Carries wrap (p.whileUnwinding pending))
      (hp : (∃ s q, p = .next s q) ∨ ∃ s v, p = .fault s v) :
      call.step t choice (r.state n).store ≠ .blocked := by
    rcases hp with ⟨s, q, rfl⟩ | ⟨s, v, rfl⟩
    · simp [hcarries.next]
    · rw [hcarries.fault]
      split <;> simp
  cases part with
  | locking p pending =>
    obtain ⟨wrap, hcarries, -⟩ := Call.step_locking t choice hcode
    refine hgoes hcarries ?_
    cases p <;> cases hpart <;> simp only [LockPhase.step, Store.withLock, hk, Store.violate] <;>
      split <;> simp
  | unlocking p pending =>
    obtain ⟨wrap, hcarries, -⟩ := Call.step_unlocking t choice hcode
    refine hgoes hcarries ?_
    cases p <;> cases hpart <;> simp only [UnlockPhase.step, Store.withLock, hk, Store.violate] <;>
      split <;> simp
  | _ => cases hpart

/-- The end of a body changes nothing but its call. -/
theorem store_of_endBody {e : BodyEnd} {call : Call} (hmove : r.move i = .endBody t e)
    (hcall : (r.state i).call? t = some call) :
    (r.state (i + 1)).store = (r.state i).store ∧
      (r.state (i + 1)).call? t = some (call.resume e) := by
  obtain ⟨outer, hget⟩ := List.head?_eq_some_iff.1 hcall
  rw [state_succ, hmove, Machine.apply, Machine.endBody_of_get hget]
  exact ⟨rfl, by rw [Machine.call?, Table.get_set_self, List.head?_cons]⟩

/-- Code of a mutex during which a panic is pending finds the mutex initialized. -/
theorem at_of_pending (hpending : part.pending? = some why) (h : (r.state n).part l t = part) :
    r.At l t part (r.Has l t n) n := by
  have haside : (r.state n).part l t ≠ .aside := by
    intro haside
    rw [← h, haside] at hpending
    cases hpending
  obtain ⟨call, outer, hget, hcode⟩ := Machine.call?_of_part haside
  have hcall : (call.part l (r.state n).store).pending? = some why := by
    rw [← hcode, h, hpending]
  exact ⟨h, r.lock_of_within n (hget ▸ List.mem_cons_self) (Call.within_of_pending hcall), Iff.rfl⟩

/-- A body that panics leaves its thread about to do the second of the two steps, on a mutex that
is had by whoever had it. -/
theorem at_of_panicked {call : Call} (hmove : r.move i = .endBody t (.panicked why))
    (hcall : (r.state i).call? t = some call)
    (hpart : (call.resume (.panicked why)).part l (r.state i).store = part)
    (hpending : part.pending? = some why) : r.At l t part (r.Has l t i) (i + 1) := by
  obtain ⟨hstore, hcall'⟩ := store_of_endBody hmove hcall
  have hpart' : (r.state (i + 1)).part l t = part := by
    rw [Machine.part, Machine.see_of_call? hcall', hstore, hpart]
  obtain ⟨-, hinit, -⟩ := at_of_pending hpending hpart'
  refine ⟨hpart', hinit, ?_⟩
  rw [← holder_iff_has, ← holder_iff_has, hstore]

/-- After the drop its thread is about to unlock with the panic pending. -/
theorem Drops.at (h : r.Drops l t i) :
    ∃ why, r.At l t (.unlocking .entry (some why)) (r.Has l t i) (i + 1) := by
  obtain ⟨why, call, hmove, hcall, hguards⟩ := h
  refine ⟨why, at_of_panicked hmove hcall ?_ rfl⟩
  cases hguards with
  | scope => exact if_pos rfl
  | once hgate => exact if_pos hgate

/-- After the end of the section its thread is about to lock with the panic pending. -/
theorem Rejoins.at (h : r.Rejoins l t i) :
    ∃ why, r.At l t (.locking .entry (some why)) (r.Has l t i) (i + 1) := by
  obtain ⟨why, hmove, hcall⟩ := h
  exact ⟨why, at_of_panicked hmove hcall (if_pos rfl) rfl⟩

end Run

/-! ### The checks of the owner word

On an initialized mutex only one phase can fail, and it comes right after the first one. -/

namespace LockPhase

variable {p : LockPhase} {s' : Store} {me : ThreadId} {why : Panic}

/-- The check comes right after the first phase. -/
theorem eq_entry_of_next (h : p.step t l s = .next s' (.check me)) : p = .entry := by
  cases p with
  | entry => rfl
  | _ =>
    simp only [step, Store.withLock] at h
    (repeat' split at h) <;> cases h

theorem next_ne_entry (p : LockPhase) : p.step t l s ≠ .next s' .entry := by
  cases p <;> simp only [step, Store.withLock, Store.violate] <;> (repeat' split) <;>
    (intro h; cases h)

/-- Only the check fails on an initialized mutex, where the thread is the owner. -/
theorem of_fault (p : LockPhase) (hinit : s.lock l ≠ none) (h : p.step t l s = .fault s' why) :
    ∃ me k, p = .check me ∧ s.lock l = some k ∧ k.owner = me := by
  obtain ⟨k, hk⟩ := Option.ne_none_iff_exists'.1 hinit
  cases p with
  | check me =>
    simp only [step, Store.withLock, Store.violate, hk] at h
    split at h <;> cases h
    exact ⟨me, k, rfl, hk, ‹_›⟩
  | _ =>
    simp only [step, Store.withLock, hk, Option.isNone_some, Bool.false_eq_true, if_false] at h
    first | cases h | (split at h <;> cases h)

end LockPhase

namespace UnlockPhase

variable {p : UnlockPhase} {s' : Store} {me : ThreadId} {why : Panic}

/-- The check comes right after the first phase. -/
theorem eq_entry_of_next (h : p.step t l s = .next s' (.check me)) : p = .entry := by
  cases p with
  | entry => rfl
  | _ =>
    simp only [step, Store.withLock] at h
    (repeat' split at h) <;> cases h

theorem next_ne_entry (p : UnlockPhase) : p.step t l s ≠ .next s' .entry := by
  cases p <;> simp only [step, Store.withLock, Store.violate] <;> (repeat' split) <;>
    (intro h; cases h)

/-- Only the check fails on an initialized mutex, where the thread is not the owner. -/
theorem of_fault (p : UnlockPhase) (hinit : s.lock l ≠ none) (h : p.step t l s = .fault s' why) :
    ∃ me k, p = .check me ∧ s.lock l = some k ∧ k.owner ≠ me := by
  obtain ⟨k, hk⟩ := Option.ne_none_iff_exists'.1 hinit
  cases p with
  | check me =>
    simp only [step, Store.withLock, Store.violate, hk] at h
    split at h <;> cases h
    exact ⟨me, k, rfl, hk, ‹_›⟩
  | _ =>
    simp only [step, Store.withLock, hk, Option.isNone_some, Bool.false_eq_true, if_false] at h
    cases h

end UnlockPhase

/-- What ends the process is a step of the thread's innermost call. -/
theorem Machine.exists_abort {m : Machine} (h : (m.advance t choice).2 = .aborted) :
    ∃ call outer s', m.calls.get t = call :: outer ∧ call.step t choice m.store = .abort s' := by
  unfold advance at h
  split at h
  · cases h
  · split at h
    · split at h <;> cases h
    all_goals first | cases h; done | exact ⟨_, _, _, ‹_›, ‹_›⟩

/-! ### What a pending panic tells of the past

The converse direction: a step that ends the process is the check, so its thread was at the check,
before that at the entry, and came there by a panic that left a body. The induction goes backwards
over the moves, and stands still in those of the others. -/

/-- A step within code of a mutex, with a panic pending. -/
inductive LockPart.Goes (t : Tid) (l : LockRef) (s s' : Store) (why : Panic) :
    LockPart → LockPart → Prop
  | unlocking {p p' : UnlockPhase} (h : p.step t l s = .next s' p') :
    Goes t l s s' why (.unlocking p (some why)) (.unlocking p' (some why))
  | locking {p p' : LockPhase} (h : p.step t l s = .next s' p') :
    Goes t l s s' why (.locking p (some why)) (.locking p' (some why))

/-- A scope that unlocks with a panic pending was doing that already. -/
theorem ScopePhase.of_unlocking {t : Tid} {l : LockRef} {s s' : Store} {p : ScopePhase}
    {p' : UnlockPhase} {why : Panic} (h : p.step t l s = .next s' (.unlocking p' (some why))) :
    ∃ q, p = .unlocking q (some why) ∧ q.step t l s = .next s' p' := by
  cases p with
  | locking p =>
    obtain ⟨_, -, hphase⟩ | ⟨_, _, -, hdone⟩ := Progress.next_of_within h
    · cases hphase
    · cases hdone
  | body => cases h
  | unlocking p pending =>
    obtain ⟨q, hq, hphase⟩ := Progress.next_of_passOn h
    cases hphase
    exact ⟨p, rfl, hq⟩

/-- A section that locks with a panic pending was doing that already. -/
theorem UnlockedPhase.of_relocking {t : Tid} {l : LockRef} {s s' : Store} {p : UnlockedPhase}
    {p' : LockPhase} {why : Panic} (h : p.step t l s = .next s' (.relocking p' (some why))) :
    ∃ q, p = .relocking q (some why) ∧ q.step t l s = .next s' p' := by
  cases p with
  | unlocking p =>
    obtain ⟨_, -, hphase⟩ | ⟨_, _, -, hdone⟩ := Progress.next_of_within h
    · cases hphase
    · cases hdone
  | body => cases h
  | relocking p pending =>
    obtain ⟨q, hq, hphase⟩ := Progress.next_of_passOn h
    cases hphase
    exact ⟨p, rfl, hq⟩

/-- A gate that unlocks with a panic pending was doing that already. -/
theorem OncePhase.of_unlocking {t : Tid} {o : OnceRef} {s s' : Store} {p : OncePhase}
    {p' : UnlockPhase} {why : Panic} (h : p.step t o s = .next s' (.unlocking p' (.panicked why))) :
    ∃ q, p = .unlocking q (.panicked why) ∧ q.step t (s.onces.get o).lock s = .next s' p' := by
  cases p with
  | locking p =>
    obtain ⟨_, -, hphase⟩ | ⟨_, _, -, hdone⟩ := Progress.next_of_within h
    · cases hphase
    · cases hdone
  | unlocking p finish =>
    obtain ⟨q, hq, hphase⟩ := Progress.next_of_passOn h
    cases hphase
    exact ⟨p, rfl, hq⟩
  | _ =>
    simp only [step] at h
    (repeat' split at h) <;> cases h

namespace Call

variable {call call' : Call} {why : Panic} {s' : Store}

/-- A call goes on with a panic pending only if its body has panicked, and what it goes on with
tells what it is. -/
theorem of_resume {e : BodyEnd} (h : call.atBody = true)
    (hpending : ((call.resume e).part l s).pending? = some why) :
    e = .panicked why ∧ (call.Guards l s ∧ (call.resume e).part l s = .unlocking .entry (some why) ∨
      call = .unlocked l .body ∧ (call.resume e).part l s = .locking .entry (some why)) := by
  have hpanic (hp : e.panic? = some why) : e = .panicked why := by
    cases e <;> cases hp
    rfl
  -- which calls have a body, and which of these hold a panic back after it
  unfold atBody at h
  split at h
  · obtain ⟨p, hcall⟩ | ⟨o, p, -, hcall⟩ | ⟨p, hcall⟩ := of_pending hpending <;>
      simp only [resume, ScopePhase.resume, scope.injEq, ScopePhase.unlocking.injEq,
        reduceCtorEq] at hcall
    obtain ⟨rfl, rfl, hp⟩ := hcall
    exact ⟨hpanic hp, .inl ⟨.scope, by simp [resume, ScopePhase.resume, part, ScopePhase.part, hp]⟩⟩
  · obtain ⟨p, hcall⟩ | ⟨o, p, -, hcall⟩ | ⟨p, hcall⟩ := of_pending hpending <;>
      simp only [resume, UnlockedPhase.resume, unlocked.injEq, UnlockedPhase.relocking.injEq,
        reduceCtorEq] at hcall
    obtain ⟨rfl, rfl, hp⟩ := hcall
    exact ⟨hpanic hp,
      .inr ⟨rfl, by simp [resume, UnlockedPhase.resume, part, UnlockedPhase.part, hp]⟩⟩
  · obtain ⟨p, hcall⟩ | ⟨o, p, -, hcall⟩ | ⟨p, hcall⟩ := of_pending hpending <;>
      simp [resume] at hcall
  · obtain ⟨p, hcall⟩ | ⟨o, p, hgate, hcall⟩ | ⟨p, hcall⟩ := of_pending hpending
    · simp [resume] at hcall
    · rcases e with ⟨_ | _⟩ | why' <;>
        simp only [resume, OncePhase.resume, once.injEq, OncePhase.unlocking.injEq,
          OnceEnd.panicked.injEq, reduceCtorEq, and_false] at hcall
      obtain ⟨rfl, rfl, rfl⟩ := hcall
      exact ⟨rfl, .inl ⟨.once hgate, if_pos hgate⟩⟩
    · simp [resume] at hcall
  · cases h

/-- A step that leaves a panic pending is a step of the same code. -/
theorem next_of_pending (h : call.step t choice s = .next s' call')
    (hpending : (call'.part l s').pending? = some why) :
    LockPart.Goes t l s s' why (call.part l s) (call'.part l s') := by
  -- the call stays one of its kind, with the same mutex
  have hkind := origin_of_step h
  obtain ⟨p', rfl⟩ | ⟨o, p', hgate, rfl⟩ | ⟨p', rfl⟩ := of_pending hpending
  · cases call <;> cases hkind
    obtain ⟨phase, hp, hphase⟩ := Progress.next_of_lift h
    cases hphase
    obtain ⟨p, rfl, hstep⟩ := ScopePhase.of_unlocking hp
    simp only [part, if_true]
    exact .unlocking hstep
  · cases call <;> cases hkind
    obtain ⟨phase, hp, hphase⟩ := Progress.next_of_lift h
    cases hphase
    have hgate' := ((Machine.frame_of_next h).gates o).symm.trans hgate
    obtain ⟨p, rfl, hstep⟩ := OncePhase.of_unlocking hp
    simp only [part, hgate', hgate, if_true]
    exact .unlocking (hgate' ▸ hstep)
  · cases call <;> cases hkind
    obtain ⟨phase, hp, hphase⟩ := Progress.next_of_lift h
    cases hphase
    obtain ⟨p, rfl, hstep⟩ := UnlockedPhase.of_relocking hp
    simp only [part, if_true]
    exact .locking hstep

end Call

namespace Run

variable {r : Run} {i n : Nat} {why : Panic} {part : LockPart}

/-- How thread `t` comes, in move `n`, to code of mutex `l` with a panic pending. -/
inductive Enters (r : Run) (l : LockRef) (t : Tid) (why : Panic) (n : Nat) : LockPart → Prop
  | dropped (h : r.Drops l t n) : Enters r l t why n (.unlocking .entry (some why))
  | rejoined (h : r.Rejoins l t n) : Enters r l t why n (.locking .entry (some why))
  | goes {choice : Choice} {part part' : LockPart} {s' : Store}
    (hmove : r.move n = .advance t choice) (hpart : (r.state n).part l t = part)
    (hstep : LockPart.Goes t l (r.state n).store s' why part part') : Enters r l t why n part'

/-- Code with a panic pending was there before, or is come to. -/
theorem enters_of_pending (hpart : (r.state (n + 1)).part l t = part)
    (hpending : part.pending? = some why) :
    (r.state n).part l t = part ∧
      (∀ choice, r.move n = .advance t choice → ((r.state n).advance t choice).2 = .blocked) ∨
    r.Enters l t why n part := by
  have haside : (r.state (n + 1)).part l t ≠ .aside := by
    rintro haside
    rw [← hpart, haside] at hpending
    cases hpending
  obtain ⟨call', outer', hget', hcode⟩ := Machine.call?_of_part haside
  have hcall' : (r.state (n + 1)).call? t = some call' := Machine.call?_of_get hget'
  have hbody : call'.atBody = false := Call.not_body_of_part (hcode ▸ haside)
  replace hcode := hcode.symm.trans hpart
  subst hcode
  have hsound := r.state_sound n
  by_cases hown : ∃ choice, r.move n = .advance t choice
  · obtain ⟨choice, hmove⟩ := hown
    have hstate := state_of_advance hmove
    by_cases hblocked : ((r.state n).advance t choice).2 = .blocked
    · refine .inl ⟨?_, ?_⟩
      · rw [← hpart, hstate, Machine.same_of_blocked hblocked]
      · intro choice' hmove'
        cases hmove.symm.trans hmove'
        exact hblocked
    · obtain ⟨call, hcall, hstep⟩ :=
        hsound.next_of_advance (hstate ▸ hcall') hbody hblocked
      rw [← hstate] at hstep
      have hbefore : (r.state n).part l t = call.part l (r.state n).store :=
        Machine.see_of_call? hcall
      exact .inr (.goes hmove hbefore (Call.next_of_pending hstep hpending))
  · have hothers (choice : Choice) : r.move n ≠ .advance t choice := fun h => hown ⟨choice, h⟩
    cases hsound.arises (r.state_allows n) hcall' hbody with
    | idle hcall =>
      have hknown := hsound.known t _ (Machine.mem_of_call? hcall)
      refine .inl ⟨?_, fun choice hmove => absurd hmove (hothers choice)⟩
      rw [Call.part_congr hknown (r.state_change n).handles.2]
      exact Machine.see_of_call? hcall
    -- no call begins with a panic pending
    | begun _ hfresh =>
      obtain ⟨p, rfl⟩ | ⟨o, p, -, rfl⟩ | ⟨p, rfl⟩ := Call.of_pending hpending <;> cases hfresh
    | @resumed e call hmove hcall hbody' heq =>
      subst heq
      rw [(store_of_endBody hmove hcall).1] at hpending ⊢
      obtain ⟨rfl, ⟨hguards, hentry⟩ | ⟨rfl, hentry⟩⟩ := Call.of_resume hbody' hpending
      · exact .inr (hentry ▸ .dropped ⟨why, call, hmove, hcall, hguards⟩)
      · exact .inr (hentry ▸ .rejoined ⟨why, hmove, hcall⟩)
    | next hmove => exact absurd hmove (hothers _)
    | born heq =>
      subst heq
      cases hpending

/-- A thread that has a panic pending and has yet to check the owner word came to that in a move of
its own, and has taken no step since. -/
theorem exists_enters (hpart : (r.state n).part l t = part) (hpending : part.pending? = some why)
    (hchecking : part.isChecking = true) :
    ∃ a < n, r.Enters l t why a part ∧
      ∀ k, a < k → k < n → ∀ choice, r.move k ≠ .advance t choice := by
  induction n with
  | zero =>
    subst hpart
    cases hpending
  | succ n ih =>
    rcases enters_of_pending hpart hpending with ⟨hbefore, hblocked⟩ | henters
    · obtain ⟨a, han, henters, hquiet⟩ := ih hbefore
      refine ⟨a, Nat.lt_succ_of_lt han, henters, ?_⟩
      intro k hak hkn choice hmove
      rcases Nat.lt_or_eq_of_le (Nat.le_of_lt_succ hkn) with hkn | rfl
      · exact hquiet k hak hkn choice hmove
      -- a step of the thread would have gone on, and not left the code as it was
      · exact (at_of_pending hpending hbefore).not_blocked hchecking choice (hblocked choice hmove)
    · exact ⟨n, Nat.lt_succ_self n, henters, fun k hnk hkn => by omega⟩

/-- A drop is about to check the owner word two steps after the panic, and whether its thread has
the mutex is as it was. -/
theorem Drops.at_second (h : r.Drops l t i) (hsecond : r.Second t i n) :
    ∃ why me, r.At l t (.unlocking (.check me) (some why)) (r.Has l t i) n := by
  obtain ⟨a, first, second, hfirst, hnext⟩ := hsecond
  obtain ⟨choice, hmove, -⟩ := hfirst.step
  obtain ⟨why, hentry⟩ := h.at
  obtain ⟨-, me, hcheck⟩ := (hentry.until (by simp) hfirst).unlock_entry hmove
  exact ⟨why, me, hcheck.until (by simp) hnext⟩

/-- The end of a section is about to check the owner word two steps after the panic, likewise. -/
theorem Rejoins.at_second (h : r.Rejoins l t i) (hsecond : r.Second t i n) :
    ∃ why me, r.At l t (.locking (.check me) (some why)) (r.Has l t i) n := by
  obtain ⟨a, first, second, hfirst, hnext⟩ := hsecond
  obtain ⟨choice, hmove, -⟩ := hfirst.step
  obtain ⟨why, hentry⟩ := h.at
  obtain ⟨-, me, hcheck⟩ := (hentry.until (by simp) hfirst).lock_entry hmove
  exact ⟨why, me, hcheck.until (by simp) hnext⟩

/-- A check of the owner word during a panic is the second step after the panic came to it. -/
theorem Drops.of_check (hpart : (r.state n).part l t = .unlocking (.check me) (some why))
    (hmove : r.move n = .advance t choice) : ∃ i, r.Drops l t i ∧ r.Second t i n := by
  obtain ⟨a, han, henters, hquiet⟩ := exists_enters hpart rfl rfl
  cases henters with
  | goes hmove' hbefore hgoes =>
    cases hgoes with
    | unlocking hstep =>
      cases UnlockPhase.eq_entry_of_next hstep
      obtain ⟨i, hia, henters, hquiet'⟩ := exists_enters hbefore rfl rfl
      refine ⟨i, ?_, a, _, _, ⟨hia, ⟨_, hmove', rfl⟩, hquiet'⟩, ⟨han, ⟨_, hmove, rfl⟩, hquiet⟩⟩
      cases henters with
      | dropped h => exact h
      | goes _ _ hgoes =>
        cases hgoes with
        | unlocking hstep => exact absurd hstep (UnlockPhase.next_ne_entry _)

/-- The same for the end of a section. -/
theorem Rejoins.of_check (hpart : (r.state n).part l t = .locking (.check me) (some why))
    (hmove : r.move n = .advance t choice) : ∃ i, r.Rejoins l t i ∧ r.Second t i n := by
  obtain ⟨a, han, henters, hquiet⟩ := exists_enters hpart rfl rfl
  cases henters with
  | goes hmove' hbefore hgoes =>
    cases hgoes with
    | locking hstep =>
      cases LockPhase.eq_entry_of_next hstep
      obtain ⟨i, hia, henters, hquiet'⟩ := exists_enters hbefore rfl rfl
      refine ⟨i, ?_, a, _, _, ⟨hia, ⟨_, hmove', rfl⟩, hquiet'⟩, ⟨han, ⟨_, hmove, rfl⟩, hquiet⟩⟩
      cases henters with
      | rejoined h => exact h
      | goes _ _ hgoes =>
        cases hgoes with
        | locking hstep => exact absurd hstep (LockPhase.next_ne_entry _)

/-- The process ends exactly in the second step after a panic has ended a guard whose mutex its
thread does not have, or a section whose mutex it has. -/
theorem aborts_iff : r.Aborts t n ↔
    ∃ i l, (r.Drops l t i ∧ ¬ r.Has l t i ∨ r.Rejoins l t i ∧ r.Has l t i) ∧ r.Second t i n := by
  constructor
  case mp =>
    rintro ⟨choice, hmove, hnotice⟩
    obtain ⟨call, outer, s', hget, habort⟩ := Machine.exists_abort hnotice
    have hpart (l : LockRef) : (r.state n).part l t = call.part l (r.state n).store :=
      Machine.see_of_get hget
    -- only a check of the owner word fails there, and that is the second step after the panic
    obtain ⟨l, why, v, ⟨p, hcode, hfault⟩ | ⟨p, hcode, hfault⟩⟩ := Call.of_abort habort
    · have hat := at_of_pending rfl ((hpart l).trans hcode)
      obtain ⟨me, k, rfl, hk, hne⟩ := p.of_fault hat.initialized hfault
      obtain ⟨i, hdrops, hsecond⟩ := Drops.of_check hat.part hmove
      obtain ⟨_, _, hsame⟩ := hdrops.at_second hsecond
      have howner := (check_iff hk (by rw [hat.part]; rfl)).2.2
      exact ⟨i, l, .inl ⟨hdrops, mt (fun h => howner.2 (hsame.has.2 h)) hne⟩, hsecond⟩
    · have hat := at_of_pending rfl ((hpart l).trans hcode)
      obtain ⟨me, k, rfl, hk, heq⟩ := p.of_fault hat.initialized hfault
      obtain ⟨i, hrejoins, hsecond⟩ := Rejoins.of_check hat.part hmove
      obtain ⟨_, _, hsame⟩ := hrejoins.at_second hsecond
      have howner := (check_iff hk (by rw [hat.part]; rfl)).2.2
      exact ⟨i, l, .inr ⟨hrejoins, hsame.has.1 (howner.1 heq)⟩, hsecond⟩
  case mpr =>
    rintro ⟨i, l, ⟨hdrops, hnot⟩ | ⟨hrejoins, hhas⟩, hsecond⟩
    · obtain ⟨why, me, hat⟩ := hdrops.at_second hsecond
      obtain ⟨a, first, second, -, hnext⟩ := hsecond
      obtain ⟨choice, hmove, -⟩ := hnext.step
      rw [eq_false hnot] at hat
      exact ⟨choice, hmove, hat.unlock_check.notice choice⟩
    · obtain ⟨why, me, hat⟩ := hrejoins.at_second hsecond
      obtain ⟨a, first, second, -, hnext⟩ := hsecond
      obtain ⟨choice, hmove, -⟩ := hnext.step
      rw [eq_true hhas] at hat
      exact ⟨choice, hmove, hat.lock_check.notice choice⟩

/-- The destructor of a mutex finds fault exactly if the mutex is not initialized or somebody has
it. -/
theorem findings_mutex (r : Run) (n : Nat) (l : LockRef) :
    (r.state n).store.lock l = none ∧
        (r.state n).store.findings (.mutex l) = [.mutexNeverInitialized] ∨
      ∃ k, (r.state n).store.lock l = some k ∧
        ((∃ u, r.Has l u n) ∧
            (r.state n).store.findings (.mutex l) = [.mutexDroppedHeld k.owner] ∨
          (∀ u, ¬ r.Has l u n) ∧ (r.state n).store.findings (.mutex l) = []) := by
  refine ((r.state n).store.foundByState.mutex l).imp_right fun ⟨k, hk, hfound⟩ => ⟨k, hk, ?_⟩
  simp only [← holder_iff_has, Store.holder_of_lock hk]
  refine hfound.imp (And.imp_left Option.isSome_iff_exists.1) (And.imp_left ?_)
  intro hlocked u hu
  simp [LockState.isLocked, hu] at hlocked

/-- Which destructors may end the process. The process ends exactly in the second step after a
panic has ended a guard whose mutex its thread does not have, or a section whose mutex it has.
A destructor of an object reports each of its findings once, the first of them is the panic, and
while its thread unwinds there is none: the panic on its way goes on as it was. What it finds is
told by the state of the object. -/
theorem destructors_and_aborts :
    (∀ (r : Run) (t : Tid) (n : Nat), r.Aborts t n ↔
      ∃ i l, (r.Drops l t i ∧ ¬ r.Has l t i ∨ r.Rejoins l t i ∧ r.Has l t i) ∧ r.Second t i n) ∧
    (∀ (m : Machine) (t : Tid) (o : Object) (unwinding : Bool) (outer : List Call),
      m.calls.get t = .destroy o unwinding :: outer →
      ∀ choice, m.Finds t choice unwinding (m.store.findings o)) ∧
    (∀ (r : Run) (n : Nat) (l : LockRef),
      (r.state n).store.lock l = none ∧
          (r.state n).store.findings (.mutex l) = [.mutexNeverInitialized] ∨
        ∃ k, (r.state n).store.lock l = some k ∧
          ((∃ u, r.Has l u n) ∧
              (r.state n).store.findings (.mutex l) = [.mutexDroppedHeld k.owner] ∨
            (∀ u, ¬ r.Has l u n) ∧ (r.state n).store.findings (.mutex l) = [])) ∧
    (∀ s : Store, s.FoundByState) ∧
    -- a monitor that is the last user of its mutex, where both of its parts are in violation
    (∀ (m : Machine) (t : Tid) (mo : MonitorRef) (outer : List Call) (v w : Violation),
      m.calls.get t = .destroy (.monitor mo) false :: outer →
      m.store.lockUsers.get (m.store.monitors.get mo).lock ≤ 1 →
      (m.store.locks.get (m.store.monitors.get mo).lock).dropViolation = some v →
      (m.store.conds.get (m.store.monitors.get mo).cond).dropViolation = some w →
      ∀ choice, (m.advance t choice).2 = .panicked (.violation v) ∧
        (m.advance t choice).1.store.log = .violation w :: .violation v :: m.store.log) ∧
    (∀ (w : World) (t : Tid) (p : Pending) (outer : List Frame) (why : Panic) (o : Object)
      (rest : List Call),
      (w.agent t).focus = .calling → (w.agent t).frames = .call p :: outer →
      p.continuation = .panicking why → w.machine.calls.get t = .destroy o true :: rest →
      ∀ choice, ((w.step t choice).1.agent t).focus = .raise why ∧
        ((w.step t choice).1.agent t).frames = outer ∧
        (w.step t choice).1.aborted = w.aborted) := by
  refine ⟨fun r t n => aborts_iff, fun m t o unwinding outer => Machine.finds_of_destroy,
    findings_mutex, Store.foundByState, ?_, ?_⟩
  · intro m t mo outer v w hget husers hlock hcond choice
    have hfinds := Machine.finds_of_destroy hget choice
    have hfound : m.store.findings (.monitor mo) = [v, w] := by
      simp [Store.findings, husers, hlock, hcond]
    rw [hfound] at hfinds
    exact ⟨hfinds.panics rfl v [w] rfl, hfinds.log⟩
  · intro w t p outer why o rest hfocus hframes hp hget
    exact World.panic_goes_on hfocus hframes hp hget

/-- Thread 0 gives up the mutex of its guard by hand and then panics. -/
def unwound : Run :=
  ofList
    ([.create (.mutex true), .begin 0 (.guarding 0)] ++ steps 0 4 ++ [.begin 0 (.unlocking 0)] ++
      steps 0 4 ++ [.endBody 0 (.panicked (.client "lost"))] ++ steps 0 2) (by decide +kernel)

/-- A machine with a held mutex, a condition variable that has a sleeper and a thread that runs.
Thread 0 destroys the monitor of the first two, thread 1 the thread object, and thread 2, which
unwinds, the condition variable alone. -/
def forsaken : Machine where
  store := { Store.initial with
    locks := .set .empty 0 ⟨some ⟨some 0, ⟨1⟩⟩⟩
    conds := .set .empty 1 (.fallback ⟨1, ⟨1, 1⟩, .clear⟩)
    monitors := .set .empty 2 ⟨0, 1⟩
    lockUsers := .set .empty 0 1
    threads := .set .empty 3 ⟨⟨2⟩, some 3, .running, none, none⟩ }
  calls := Table.empty
    |>.set 0 [.destroy (.monitor 2) false]
    |>.set 1 [.destroy (.thread 3) false]
    |>.set 2 [.destroy (.condition 1) true]

/-- The guard is dropped without its mutex, and its second step ends the process. The monitor's
destructor panics for its mutex and only logs what it finds of its condition variable. The one of
the thread object panics, and the one of the condition variable, run in an unwinding thread, only
logs. -/
theorem destructors_and_aborts_unwound :
    unwound.Drops 0 0 11 ∧ ¬ unwound.Has 0 0 11 ∧ unwound.Aborts 0 13 ∧
      ((forsaken.advance 0 ⟨0, false⟩).2 = .panicked (.violation (.mutexDroppedHeld ⟨1⟩)) ∧
        (forsaken.advance 0 ⟨0, false⟩).1.store.log =
          [.violation (.conditionDropped ⟨1, ⟨1, 1⟩, .clear⟩),
            .violation (.mutexDroppedHeld ⟨1⟩)]) ∧
      ((forsaken.advance 1 ⟨0, false⟩).2 = .panicked (.violation (.threadDroppedRunning ⟨2⟩)) ∧
        (forsaken.advance 1 ⟨0, false⟩).1.store.log =
          [.violation (.threadDroppedRunning ⟨2⟩)]) ∧
      (forsaken.advance 2 ⟨0, false⟩).2 = .replied .nothing ∧
        (forsaken.advance 2 ⟨0, false⟩).1.store.log =
          [.violation (.conditionDropped ⟨1, ⟨1, 1⟩, .clear⟩)] := by
  obtain ⟨haborts, hfinds, -, hstates, hmonitor, -⟩ := destructors_and_aborts
  have hdrops : unwound.Drops 0 0 11 :=
    ⟨.client "lost", .scope 0 .body, rfl, by decide +kernel, .scope⟩
  have hholder : (unwound.state 11).store.holder 0 = none := by decide +kernel
  have hnot : ¬ unwound.Has 0 0 11 := by
    intro hhas
    cases hholder.symm.trans (holder_iff_has.2 hhas)
  have hsecond : unwound.Second 0 11 13 :=
    ⟨12, _, _, ⟨Nat.le_refl _, ⟨⟨0, false⟩, rfl, rfl⟩, fun k hk hlt => by omega⟩,
      ⟨Nat.le_refl _, ⟨⟨0, false⟩, rfl, rfl⟩, fun k hk hlt => by omega⟩⟩
  -- the thread runs, and somebody sleeps on the condition variable
  have hrunning := ((hstates forsaken.store).thread 3).resolve_right fun hidle => hidle.1 rfl
  have hsleeper := ((hstates forsaken.store).portable 1 ⟨1, ⟨1, 1⟩, .clear⟩ rfl).resolve_left
    fun hquiet => absurd hquiet.1 (by decide)
  have hthread := hfinds forsaken 1 (.thread 3) false [] rfl ⟨0, false⟩
  have hcond := hfinds forsaken 2 (.condition 1) true [] rfl ⟨0, false⟩
  rw [hrunning.2] at hthread
  rw [hsleeper.2] at hcond
  exact ⟨hdrops, hnot, (haborts unwound 0 13).2 ⟨11, 0, .inl ⟨hdrops, hnot⟩, hsecond⟩,
    hmonitor forsaken 0 2 [] _ _ rfl (by decide) rfl rfl ⟨0, false⟩,
    ⟨hthread.panics rfl _ [] rfl, hthread.log⟩, hcond.silent (.inl rfl), hcond.log⟩

end Run

end Interlock
