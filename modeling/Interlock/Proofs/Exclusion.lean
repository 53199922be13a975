import Interlock.Proofs.Ownership

/-!
# Mutual exclusion

Who has a mutex, told by what the threads have done: a thread has it from the step in which it
takes the platform lock to the step in which it, or the platform on its behalf, releases that.

  * `Call.part`: the code of a mutex that a call is in. The same code runs in many kinds of calls,
    so a step of a call is first seen to carry a step of that code (`Progress.Carries`);
  * `LockDeed`: what a step does with the platform lock, told by the code alone;
  * `Run.HasSince`: a thread has taken the platform lock and not released it;
  * `Run.holder_iff_has`: the platform lock knows who has it;
  * `Run.Exclusive`, `Run.mutex_exclusive`: at most one thread has a mutex, the owner word names it,
    and the checks of the owner word find what is so.

The owner word alone cannot say who has a mutex: it is written after the platform lock is taken, and
cleared before that is released. So who has it is told by the past, and compared with the platform
lock move by move (`Run.lockEvent`): a move is a step in the code of the mutex, or initializes the
mutex, or leaves the lock alone. What the owner word says comes from `Ownership`.
-/

namespace Interlock

/-! ## The part of a call that works on a mutex

Many calls lock and unlock a mutex, and each of them calls the same functions for it. The part of a
call is the phase of that function, with what the caller does about a panic and without what it does
afterwards, so a statement about locking is one about every place where it happens. -/

/-- The code of a mutex that a call is in, with the panic that is pending meanwhile. -/
inductive LockPart where
  /-- The call does nothing to the mutex now. -/
  | aside
  | locking (p : LockPhase) (pending : Option Panic)
  | unlocking (p : UnlockPhase) (pending : Option Panic)
  /-- The platform's condition variable `c` is to release the mutex and take it again. -/
  | parking (c : CondRef) (timeout : Option Duration) (p : NativeWaitPhase)
  /-- A wait looks whether its thread holds the mutex. -/
  | checking (me : ThreadId)
  deriving DecidableEq

def FallbackWaitPhase.part : FallbackWaitPhase → LockPart
  | unlocking p => .unlocking p none
  | locking p _ => .locking p none
  | _ => .aside

def WaitPhase.part (c : CondRef) (timeout : Option Duration) : WaitPhase → LockPart
  | check me => .checking me
  | native p => .parking c timeout p
  | fallback p => p.part
  | _ => .aside

def WaitWhilePhase.part (c : CondRef) : WaitWhilePhase → LockPart
  | waiting _ rest p => p.part c rest
  | _ => .aside

def ScopePhase.part : ScopePhase → LockPart
  | locking p => .locking p none
  | body => .aside
  | unlocking p pending => .unlocking p pending

def UnlockedPhase.part : UnlockedPhase → LockPart
  | unlocking p => .unlocking p none
  | body => .aside
  | relocking p pending => .locking p pending

def OncePhase.part : OncePhase → LockPart
  | locking p => .locking p none
  | unlocking p finish => .unlocking p finish.panic?
  | _ => .aside

/-- The code of mutex `l` that a call is in. -/
def Call.part (l : LockRef) (s : Store) : Call → LockPart
  | lock k p => if k = l then .locking p none else .aside
  | unlock k p => if k = l then .unlocking p none else .aside
  | scope k p => if k = l then p.part else .aside
  | unlocked k p => if k = l then p.part else .aside
  | wait c k timeout p => if k = l then p.part c timeout else .aside
  | waitWhile c k _ p => if k = l then p.part c else .aside
  | once o p => if (s.onces.get o).lock = l then p.part else .aside
  | _ => .aside

/-! ## Calls that carry the code of a mutex

`Carries` says that a step of the call *is* a step of its part, wrapped in the call. It composes
along the nesting (a loop carries a wait, which carries a lock), and `step_locking`,
`step_unlocking` and `step_parking` go through the kinds of calls once and for all. -/

namespace Progress

variable {φ ψ ρ τ σ ω : Type}

/-- The outcome of a step that leaves store `s`. -/
def Leaves (s : Store) : Progress φ ρ → Prop
  | next s' _ | done s' _ | fault s' _ | abort s' => s' = s
  | blocked => False

/-- Step `q` of a whole is step `p` of its part: it is wrapped, and its store is handed on. -/
def Carries (q : Progress ψ τ) (wrap : φ → ψ) (p : Progress φ ρ) : Prop :=
  ∃ finish : Store → ρ → Progress ψ τ, q = p.within wrap finish ∧ ∀ s r, (finish s r).Leaves s

variable {p : Progress φ ρ} {q : Progress ψ τ} {wrap : φ → ψ}

/-- A whole carries its part, if it does nothing to the store after the part's reply. -/
theorem carries_within (wrap : φ → ψ) {finish : Store → ρ → Progress ψ τ}
    (hfinish : ∀ s r, (finish s r).Leaves s) : (p.within wrap finish).Carries wrap p :=
  ⟨finish, rfl, hfinish⟩

/-- What is carried by a part is carried by the whole. -/
theorem Carries.within (h : q.Carries wrap p) (wrap' : ψ → σ)
    {finish : Store → τ → Progress σ ω} (hfinish : ∀ s r, (finish s r).Leaves s) :
    (q.within wrap' finish).Carries (wrap' ∘ wrap) p := by
  obtain ⟨finish', rfl, hfinish'⟩ := h
  refine ⟨fun s r => (finish' s r).within wrap' finish, ?_, ?_⟩
  · cases p <;> rfl
  · intro s r
    dsimp only
    have hleaves := hfinish' s r
    generalize finish' s r = step at hleaves
    cases step with
    | done s' r' =>
      obtain rfl : s' = s := hleaves
      exact hfinish s' r'
    | blocked => exact hleaves
    | _ => exact hleaves

theorem leaves_passOn (s : Store) (reply : ρ) (pending : Option Panic) :
    (passOn s reply pending : Progress φ ρ).Leaves s := by
  cases pending <;> rfl

theorem Leaves.keeps {P : Store → Prop} {s : Store} (h : p.Leaves s) (hs : P s) : p.Keeps P := by
  cases p <;> first | exact h.symm ▸ hs | trivial

theorem Carries.keeps {P : Store → Prop} (h : q.Carries wrap p) (hp : p.Keeps P) : q.Keeps P := by
  obtain ⟨finish, rfl, hfinish⟩ := h
  exact hp.within fun s r hs => (hfinish s r).keeps hs

/-- If the part goes on, so does the whole, whatever panic is pending. -/
theorem Carries.next {s : Store} {phase : φ} {pending : Option Panic}
    (h : q.Carries wrap ((.next s phase : Progress φ ρ).whileUnwinding pending)) :
    q = .next s (wrap phase) := by
  obtain ⟨finish, rfl, -⟩ := h
  cases pending <;> rfl

/-- If the part panics, so does the whole, and a second panic ends the process. -/
theorem Carries.fault {s : Store} {why : Panic} {pending : Option Panic}
    (h : q.Carries wrap ((.fault s why : Progress φ ρ).whileUnwinding pending)) :
    q = if pending.isSome then .abort s else .fault s why := by
  obtain ⟨finish, rfl, -⟩ := h
  cases pending <;> rfl

end Progress

namespace Call

variable {t : Tid} {l : LockRef} {s : Store} {choice : Choice} {call : Call}

/-- A call that locks a mutex takes the steps of locking. -/
theorem step_locking (t : Tid) (choice : Choice) {p : LockPhase} {pending : Option Panic}
    (h : call.part l s = .locking p pending) :
    ∃ wrap : LockPhase → Call,
      (call.step t choice s).Carries wrap ((p.step t l s).whileUnwinding pending) ∧
      ∀ s' q, s.Frame s' → (wrap q).part l s' = .locking q pending := by
  cases call <;> simp only [part, reduceCtorEq] at h <;> split at h <;>
    try simp only [reduceCtorEq] at h
  -- one case for each kind of call that has a phase of locking; the wrapper is that phase
  case lock.isTrue k p' hk =>
    subst hk
    cases h
    exact ⟨_, Progress.carries_within (lock k) fun _ _ => rfl,
      fun _ _ _ => if_pos rfl⟩
  case scope.isTrue k p' hk =>
    subst hk
    cases p' <;> cases h
    exact ⟨_, (Progress.carries_within ScopePhase.locking fun _ _ => by rfl).within _
      fun _ _ => by rfl,
      fun _ _ _ => if_pos rfl⟩
  case unlocked.isTrue k p' hk =>
    subst hk
    cases p' <;> cases h
    exact ⟨_, (Progress.carries_within (UnlockedPhase.relocking · pending) fun _ _ =>
        Progress.leaves_passOn _ _ _).within _ fun _ _ => by rfl,
      fun _ _ _ => if_pos rfl⟩
  case wait.isTrue c k timeout p' hk =>
    subst hk
    cases p' with
    | fallback p' =>
      cases p' <;> cases h
      rename_i w
      exact ⟨_, ((Progress.carries_within (FallbackWaitPhase.locking · w) fun _ _ => by rfl).within
          WaitPhase.fallback fun _ _ => by rfl).within _ fun _ _ => by rfl,
      fun _ _ _ => if_pos rfl⟩
    | _ => cases h
  case waitWhile.isTrue c k timeout p' hk =>
    subst hk
    cases p' with
    | waiting start rest p' =>
      cases p' with
      | fallback p' =>
        cases p' <;> cases h
        rename_i w
        exact ⟨_, (((Progress.carries_within (FallbackWaitPhase.locking · w)
          fun _ _ => by rfl).within
            WaitPhase.fallback fun _ _ => by rfl).within
              (WaitWhilePhase.waiting start rest) fun _ _ => by rfl).within _ fun _ _ => by rfl,
      fun _ _ _ => if_pos rfl⟩
      | _ => cases h
    | _ => cases h
  case once.isTrue o p' hk =>
    subst hk
    cases p' <;> cases h
    exact ⟨_, (Progress.carries_within OncePhase.locking fun _ _ => by rfl).within _
      fun _ _ => by rfl,
      fun s' q hs => if_pos (hs.gates o)⟩

/-- A call that unlocks a mutex takes the steps of unlocking. -/
theorem step_unlocking (t : Tid) (choice : Choice) {p : UnlockPhase} {pending : Option Panic}
    (h : call.part l s = .unlocking p pending) :
    ∃ wrap : UnlockPhase → Call,
      (call.step t choice s).Carries wrap ((p.step t l s).whileUnwinding pending) ∧
      ∀ s' q, s.Frame s' → (wrap q).part l s' = .unlocking q pending := by
  cases call <;> simp only [part, reduceCtorEq] at h <;> split at h <;>
    try simp only [reduceCtorEq] at h
  -- one case for each kind of call that has a phase of unlocking; the wrapper is that phase
  case unlock.isTrue k p' hk =>
    subst hk
    cases h
    exact ⟨_, Progress.carries_within (unlock k) fun _ _ => rfl,
      fun _ _ _ => if_pos rfl⟩
  case scope.isTrue k p' hk =>
    subst hk
    cases p' <;> cases h
    exact ⟨_, (Progress.carries_within (ScopePhase.unlocking · pending) fun _ _ =>
        Progress.leaves_passOn _ _ _).within _ fun _ _ => by rfl,
      fun _ _ _ => if_pos rfl⟩
  case unlocked.isTrue k p' hk =>
    subst hk
    cases p' <;> cases h
    exact ⟨_, (Progress.carries_within UnlockedPhase.unlocking fun _ _ => by rfl).within _
      fun _ _ => by rfl,
      fun _ _ _ => if_pos rfl⟩
  case wait.isTrue c k timeout p' hk =>
    subst hk
    cases p' with
    | fallback p' =>
      cases p' <;> cases h
      exact ⟨_, ((Progress.carries_within FallbackWaitPhase.unlocking fun _ _ => by rfl).within
          WaitPhase.fallback fun _ _ => by rfl).within _ fun _ _ => by rfl,
      fun _ _ _ => if_pos rfl⟩
    | _ => cases h
  case waitWhile.isTrue c k timeout p' hk =>
    subst hk
    cases p' with
    | waiting start rest p' =>
      cases p' with
      | fallback p' =>
        cases p' <;> cases h
        exact ⟨_, (((Progress.carries_within FallbackWaitPhase.unlocking fun _ _ => by rfl).within
            WaitPhase.fallback fun _ _ => by rfl).within
              (WaitWhilePhase.waiting start rest) fun _ _ => by rfl).within _ fun _ _ => by rfl,
      fun _ _ _ => if_pos rfl⟩
      | _ => cases h
    | _ => cases h
  case once.isTrue o p' hk =>
    subst hk
    cases p' <;> cases h
    rename_i finish
    exact ⟨_, (Progress.carries_within (OncePhase.unlocking · finish) fun _ _ =>
        Progress.leaves_passOn _ _ _).within _ fun _ _ => by rfl,
      fun s' q hs => if_pos (hs.gates o)⟩

/-- A call that waits on the platform's condition variable takes the steps of that. -/
theorem step_parking (t : Tid) (choice : Choice) {c : CondRef} {timeout : Option Duration}
    {p : NativeWaitPhase} (h : call.part l s = .parking c timeout p) :
    ∃ wrap : NativeWaitPhase → Call,
      (call.step t choice s).Carries wrap (p.step t c l timeout s) ∧
      ∀ s' q, (wrap q).part l s' = .parking c timeout q := by
  cases call <;> simp only [part, reduceCtorEq] at h <;> split at h <;>
    try simp only [reduceCtorEq] at h
  case scope.isTrue k p' hk => cases p' <;> cases h
  case unlocked.isTrue k p' hk => cases p' <;> cases h
  case once.isTrue o p' hk => cases p' <;> cases h
  case wait.isTrue d k timeout' p' hk =>
    -- the queue's phase is one of a wait, or of a wait in a loop
    subst hk
    cases p' with
    | native p' =>
      cases h
      exact ⟨_, (Progress.carries_within WaitPhase.native fun _ _ => by rfl).within _
        fun _ _ => by rfl,
      fun _ _ => if_pos rfl⟩
    | fallback p' => cases p' <;> cases h
    | _ => cases h
  case waitWhile.isTrue d k timeout' p' hk =>
    subst hk
    cases p' with
    | waiting start rest p' =>
      cases p' with
      | native p' =>
        cases h
        exact ⟨_, ((Progress.carries_within WaitPhase.native fun _ _ => by rfl).within
            (WaitWhilePhase.waiting start timeout) fun _ _ => by rfl).within _ fun _ _ => by rfl,
      fun _ _ => if_pos rfl⟩
      | fallback p' => cases p' <;> cases h
      | _ => cases h
    | _ => cases h

end Call

/-! ## What steps do with the platform lock

The platform lock is the only word that decides who has a mutex. A deed is what the code of a phase
does with it, before any state is known; that the state changes accordingly is `Commits`, one lemma
for each part again. -/

/-- The thread that has the platform lock of mutex `l`. -/
def Store.holder (s : Store) (l : LockRef) : Option Tid := (s.lock l).bind LockState.holder

theorem Store.holder_congr {s s' : Store} {l : LockRef} (h : s'.lock l = s.lock l) :
    s'.holder l = s.holder l := by
  rw [holder, holder, h]

/-- What the code that a thread is in does with the platform lock, if it is not stopped. -/
inductive LockDeed where
  | keep
  | take
  | release
  deriving DecidableEq

/-- What becomes of the platform lock in a step of thread `t`. -/
def LockDeed.Does (t : Tid) (before after : Option Tid) : LockDeed → Prop
  | keep => after = before
  | take => before = none ∧ after = some t
  | release => after = none

def LockPhase.deed : LockPhase → LockDeed
  | take _ => .take
  | _ => .keep

def UnlockPhase.deed : UnlockPhase → LockDeed
  | release => .release
  | _ => .keep

/-- The platform releases the mutex of a thread that it accepts as a waiter, or refuses. -/
def NativeWaitPhase.deed (accepted : Bool) : NativeWaitPhase → LockDeed
  | enqueue _ => if accepted then .release else .keep
  | refused => .release
  | retake _ _ => .take
  | _ => .keep

def Condition.accepts (l : LockRef) : Condition → Bool
  | native q => q.accepts l
  | _ => false

/-- What the code of mutex `l` does with its platform lock. -/
def LockPart.deed (l : LockRef) (s : Store) : LockPart → LockDeed
  | locking p _ => p.deed
  | unlocking p _ => p.deed
  | parking c _ p => p.deed ((s.conds.get c).accepts l)
  | aside | checking _ => .keep

/-- Whether the code of a mutex has gone past its checks, to release the platform lock without one
or to hand it to the platform. -/
def LockPart.isUnchecked : LockPart → Bool
  | unlocking .release _ | parking _ _ (.enqueue _) | parking _ _ .refused => true
  | _ => false

/-- The identity with which a check compares the owner word now. -/
def LockPart.check? : LockPart → Option ThreadId
  | locking (.check me) _ | unlocking (.check me) _ | parking _ _ (.check me) | checking me =>
    some me
  | _ => none

variable {φ ρ : Type} {t : Tid} {l : LockRef} {s s' : Store} {choice : Choice} {call : Call}

/-- A step of thread `t` that does deed `d` on mutex `l`. -/
def Progress.Commits (t : Tid) (l : LockRef) (s : Store) (d : LockDeed) (p : Progress φ ρ) : Prop :=
  p.Keeps fun s' => d.Does t (s.holder l) (s'.holder l)

theorem Store.holder_setLock {k : LockState} : (s.setLock l k).holder l = k.holder := by
  simp [holder, lock, setLock, setMutex]

theorem Store.holder_of_lock {k : LockState} (h : s.lock l = some k) :
    s.holder l = k.holder := by
  simp [holder, h]

theorem LockState.holder_of_not_isLocked {k : LockState} (h : ¬ k.isLocked = true) :
    k.holder = none := by
  simpa [isLocked] using h

/-- Locking takes the platform lock in one phase, and then only if it is free. -/
theorem LockPhase.step_commits (p : LockPhase) : (p.step t l s).Commits t l s p.deed := by
  cases p with
  | entry =>
    simp only [step, Store.violate]
    split <;> exact rfl
  | check me =>
    apply Progress.Meets.withLock
    intro k hk
    split <;> exact rfl
  | take me =>
    apply Progress.Meets.withLock
    intro k hk
    split
    · trivial
    · exact ⟨(Store.holder_of_lock hk).trans (LockState.holder_of_not_isLocked ‹_›),
        Store.holder_setLock⟩
  | claim me =>
    apply Progress.Meets.withLock
    intro k hk
    exact Store.holder_setLock.trans (Store.holder_of_lock hk).symm

/-- Unlocking releases it in its last phase. -/
theorem UnlockPhase.step_commits (p : UnlockPhase) : (p.step t l s).Commits t l s p.deed := by
  cases p with
  | entry =>
    simp only [step, Store.violate]
    split <;> exact rfl
  | check me =>
    apply Progress.Meets.withLock
    intro k hk
    split <;> exact rfl
  | disclaim =>
    apply Progress.Meets.withLock
    intro k hk
    exact Store.holder_setLock.trans (Store.holder_of_lock hk).symm
  | release =>
    apply Progress.Meets.withLock
    intro k hk
    exact Store.holder_setLock

/-- A native wait releases it as the platform takes the waiter in, and takes it on the way back. -/
theorem NativeWaitPhase.step_commits {c : CondRef} {timeout : Option Duration}
    (p : NativeWaitPhase) :
    (p.step t c l timeout s).Commits t l s (p.deed ((s.conds.get c).accepts l)) := by
  cases p with
  | entry =>
    simp only [step, Store.violate]
    split <;> exact rfl
  | check me =>
    apply Progress.Meets.withLock
    intro k hk
    split <;> exact rfl
  | disclaim me =>
    apply Progress.Meets.withLock
    intro k hk
    exact Store.holder_setLock.trans (Store.holder_of_lock hk).symm
  | enqueue me =>
    simp only [step, Store.withNative]
    split
    · apply Progress.Meets.withLock
      intro k hk
      rename_i q hq
      -- the deed depends on whether the queue takes this mutex
      simp only [deed, hq, Condition.accepts]
      split
      · exact Store.holder_setLock
      · exact rfl
    · trivial
  | refused =>
    apply Progress.Meets.withLock
    intro k hk
    exact Store.holder_setLock
  | queued me deadline =>
    simp only [step, Store.withNative]
    (repeat' split) <;> trivial
  | retake me woken =>
    apply Progress.Meets.withLock
    intro k hk
    split
    · trivial
    · exact ⟨(Store.holder_of_lock hk).trans (LockState.holder_of_not_isLocked ‹_›),
        Store.holder_setLock⟩
  | claim me woken =>
    apply Progress.Meets.withLock
    intro k hk
    exact Store.holder_setLock.trans (Store.holder_of_lock hk).symm

/-! ### Calls that are aside

A call that is in no code of a mutex writes no mutex, with one exception: it may be the call that
initializes it. -/

/-- Between unlocking and locking again, a portable wait writes no mutex. -/
theorem FallbackWaitPhase.step_aside {c : CondRef} {timeout : Option Duration}
    {p : FallbackWaitPhase} (h : p.part = .aside) :
    (p.step t c l timeout s).Keeps (·.locks = s.locks) := by
  cases p with
  | unlocking p => cases h
  | locking p w => cases h
  | _ =>
    simp only [step, Store.violate, Store.withFallback, afterDeparture]
    (repeat' split) <;> trivial

/-- Nor does a wait before its backend begins. -/
theorem WaitPhase.step_aside {c : CondRef} {timeout : Option Duration} {p : WaitPhase}
    (h : p.part c timeout = .aside ∨ ∃ me, p = .check me) :
    (p.step t c l timeout s).Keeps (·.locks = s.locks) := by
  cases p with
  | native p => simp [part] at h
  | fallback p =>
    have haside : p.part = .aside := by simpa [part] using h
    exact (FallbackWaitPhase.step_aside haside).within fun _ _ hs => hs
  | _ =>
    simp only [step, Store.violate, Store.withLock]
    (repeat' split) <;> trivial

/-- Nor does a loop while it does not wait. -/
theorem WaitWhilePhase.step_aside {c : CondRef} {timeout : Option Duration} {p : WaitWhilePhase}
    (h : p.part c = .aside ∨ ∃ start rest me, p = .waiting start rest (.check me)) :
    (p.step t c l timeout s).Keeps (·.locks = s.locks) := by
  cases p with
  | waiting start rest p =>
    have haside : p.part c rest = .aside ∨ ∃ me, p = .check me := by simpa [part] using h
    exact (WaitPhase.step_aside haside).within fun _ _ hs => hs
  | _ =>
    simp only [step]
    (repeat' split) <;> trivial

/-- A step on one mutex leaves the others alone. -/
theorem Progress.Handles.others {k : LockRef} {g g' : Grip} {grip : φ → Grip}
    {p : Progress φ ρ} (h : p.Handles t k s g grip g') (hl : k ≠ l) :
    p.Keeps fun s' => s'.lock l = s.lock l :=
  h.mono (fun _ _ hs => hs.others l hl.symm) (fun _ _ hs => hs.others l hl.symm)
    fun _ hs => hs.others l hl.symm

/-- Only a mutex that is not initialized is initialized, and then it is free. -/
theorem initMutexStep_lock {φ : Type} (k l : LockRef) (s : Store) :
    (initMutexStep k s : Progress φ Unit).Keeps fun s' =>
      s'.lock l = s.lock l ∨ s.lock l = none ∧ s'.lock l = some .free := by
  simp only [initMutexStep, Store.violate]
  split
  · exact .inl rfl
  · by_cases hk : l = k
    · subst hk
      have hnone : s.lock l = none := by simpa using ‹¬ (s.lock l).isSome = true›
      refine .inr ⟨hnone, ?_⟩
      simp [Store.lock, Store.setLock, Store.setMutex]
    · refine .inl ?_
      simp [Store.lock, Store.setLock, Store.setMutex, Table.get_set_of_ne _ _ hk]

/-- A call that is aside leaves the mutex alone, or initializes it. -/
theorem Call.step_keeps (hme : s.Owns t call.me?)
    (hdestroy : ∀ o unwinding, call ≠ .destroy o unwinding)
    (h : call.part l s = .aside ∨ ∃ me, call.part l s = .checking me) :
    (call.step t choice s).Keeps fun s' =>
      s'.lock l = s.lock l ∨ s.lock l = none ∧ s'.lock l = some .free := by
  -- either no lock changes at all, or the call works on another mutex, or it initializes this one
  have hlock {s' : Store} (hs : s'.locks = s.locks) :
      s'.lock l = s.lock l ∨ s.lock l = none ∧ s'.lock l = some .free :=
    .inl (by rw [Store.lock, hs]; rfl)
  have hkeeps {p : Progress Call Reply} (hp : p.Keeps (·.locks = s.locks)) :
      p.Keeps fun s' => s'.lock l = s.lock l ∨ s.lock l = none ∧ s'.lock l = some .free :=
    hp.imp fun _ hs => hlock hs
  have hother {p : Progress Call Reply} (hp : p.Keeps fun s' => s'.lock l = s.lock l) :
      p.Keeps fun s' => s'.lock l = s.lock l ∨ s.lock l = none ∧ s'.lock l = some .free :=
    hp.imp fun _ hs => .inl hs
  cases call with
  | lock k p =>
    have hk : k ≠ l := by
      rintro rfl
      simp [part] at h
    exact hother (((p.step_handles .none (by decide) hme).others hk).within fun _ _ hs => hs)
  | unlock k p =>
    have hk : k ≠ l := by
      rintro rfl
      simp [part] at h
    exact hother (((p.step_handles .none (by decide) (.inl rfl) hme).others hk).within
      fun _ _ hs => hs)
  | scope k p =>
    by_cases hk : k = l
    · subst hk
      cases p <;> simp [part, ScopePhase.part] at h
      exact hkeeps trivial
    · exact hother (((p.step_handles hme).others hk).within fun _ _ hs => hs)
  | unlocked k p =>
    by_cases hk : k = l
    · subst hk
      cases p <;> simp [part, UnlockedPhase.part] at h
      exact hkeeps trivial
    · exact hother (((p.step_handles hme).others hk).within fun _ _ hs => hs)
  | wait c k timeout p =>
    by_cases hk : k = l
    · subst hk
      refine hkeeps ((WaitPhase.step_aside (c := c) ?_).within fun _ _ hs => hs)
      cases p <;> simp_all [part, WaitPhase.part]
      rename_i p
      cases p <;> simp_all [FallbackWaitPhase.part]
    · exact hother (((p.step_handles hme).others hk).within fun _ _ hs => hs)
  | waitWhile c k timeout p =>
    by_cases hk : k = l
    · subst hk
      refine hkeeps ((WaitWhilePhase.step_aside (c := c) ?_).within fun _ _ hs => hs)
      cases p <;> simp_all [part, WaitWhilePhase.part]
      rename_i p
      cases p <;> simp_all [WaitPhase.part]
      rename_i p
      cases p <;> simp_all [FallbackWaitPhase.part]
    · exact hother (((p.step_handles hme).others hk).within fun _ _ hs => hs)
  | once o p =>
    by_cases hk : (s.onces.get o).lock = l
    · subst hk
      refine hkeeps ?_
      cases p <;> simp [part, OncePhase.part] at h <;> simp only [step, lift, OncePhase.step] <;>
        (repeat' split) <;> trivial
    · exact hother (((p.step_handles hme).others hk).within fun _ _ hs => hs)
  | wakeup c event p => exact hkeeps (p.step_locks.within fun _ _ hs => hs)
  | initMutex k => exact (initMutexStep_lock k l s).within fun _ _ hs => hs
  | initCond c backend =>
    simp only [step, single, initCondStep, Store.violate]
    split <;> exact .inl rfl
  | destroy o unwinding => exact absurd rfl (hdestroy o unwinding)
  | _ => exact hkeeps ((step_aside rfl).imp fun _ hs => hs.1)

/-- What a step of any call but a destruction does with the platform lock of a mutex. -/
theorem Call.step_commits (hme : s.Owns t call.me?)
    (hdestroy : ∀ o unwinding, call ≠ .destroy o unwinding) :
    (call.step t choice s).Commits t l s ((call.part l s).deed l s) := by
  have hrest (h : call.part l s = .aside ∨ ∃ me, call.part l s = .checking me) :
      (call.step t choice s).Commits t l s .keep := by
    refine (step_keeps hme hdestroy h).imp ?_
    rintro s' (hs | ⟨hs, hs'⟩)
    · exact Store.holder_congr hs
    · simp only [LockDeed.Does, Store.holder, hs, hs']
      rfl
  cases hpart : call.part l s with
  | aside => exact hrest (.inl hpart)
  | checking me => exact hrest (.inr ⟨me, hpart⟩)
  | locking p pending =>
    obtain ⟨wrap, hcarries, -⟩ := step_locking t choice hpart
    exact hcarries.keeps (p.step_commits.whileUnwinding pending)
  | unlocking p pending =>
    obtain ⟨wrap, hcarries, -⟩ := step_unlocking t choice hpart
    exact hcarries.keeps (p.step_commits.whileUnwinding pending)
  | parking c timeout p =>
    obtain ⟨wrap, hcarries, -⟩ := step_parking t choice hpart
    exact hcarries.keeps p.step_commits

/-- Only a call that works on the mutex does anything to it. -/
theorem Call.mem_objects_of_part (h : call.part l s ≠ .aside) : .mutex l ∈ call.objects s := by
  apply Decidable.byContradiction
  intro hmem
  apply h
  cases call <;> first
    | rfl
    | (simp only [objects, List.mem_cons, List.not_mem_nil, Object.mutex.injEq, reduceCtorEq,
        false_or, or_false] at hmem
       exact if_neg (Ne.symm hmem))

theorem Call.part_of_body (h : call.atBody = true) : call.part l s = .aside := by
  unfold atBody at h
  split at h <;> first | exact ite_self _ | simp at h

theorem Call.not_body_of_part (h : call.part l s ≠ .aside) : call.atBody = false := by
  rw [← Bool.not_eq_true]
  exact fun hbody => h (part_of_body hbody)

/-- The code of a mutex that a call is in depends on the store only through the mutex of a gate. -/
theorem Call.part_congr {m : Machine} {s' : Store} (hknown : m.knows call = true)
    (hgates : ∀ o < m.store.nextHandle, (s'.onces.get o).lock = (m.store.onces.get o).lock) :
    call.part l s' = call.part l m.store := by
  cases call with
  | once o p =>
    have ho : o < m.store.nextHandle := handle_lt_of_knows hknown List.mem_cons_self
    simp only [part, hgates o ho]
  | _ => rfl

/-! ### What a thread knows in the code of a mutex

The invariant about owner words speaks of grips, the deeds are told by parts. The two are read off
the same phase, and `Knows` is how they go together: it turns "this phase is past its checks" into
"this thread has the platform lock and is about to clear or has cleared the owner word". -/

/-- The grip on the mutex and the identity that go with the code that a call is in. -/
inductive LockPart.Knows : LockPart → Grip → Option ThreadId → Prop
  | aside {g : Grip} {me : Option ThreadId} : Knows .aside g me
  | locking {p : LockPhase} {pending : Option Panic} {base : Grip}
    (hbase : base = .none ∨ base = .away) : Knows (.locking p pending) (p.grip base) p.me?
  | unlocking {p : UnlockPhase} {pending : Option Panic} {base : Grip}
    (hbase : base = .none ∨ base = .full) : Knows (.unlocking p pending) (p.grip base) p.me?
  | parking {c : CondRef} {timeout : Option Duration} {p : NativeWaitPhase} :
    Knows (.parking c timeout p) p.grip p.me?
  | checking {me : ThreadId} : Knows (.checking me) .touch (some me)

/-- In a portable wait, by its phases. -/
theorem FallbackWaitPhase.part_knows (p : FallbackWaitPhase) : p.part.Knows p.grip p.me? := by
  cases p with
  | unlocking p => exact .unlocking (.inr rfl)
  | locking p w => exact .locking (.inr rfl)
  | _ => exact .aside

/-- In a wait, by its backend. -/
theorem WaitPhase.part_knows (c : CondRef) (timeout : Option Duration) (p : WaitPhase) :
    (p.part c timeout).Knows p.grip p.me? := by
  cases p with
  | check me => exact .checking
  | native p => exact .parking
  | fallback p => exact p.part_knows
  | _ => exact .aside

/-- In a loop, by its wait. -/
theorem WaitWhilePhase.part_knows (c : CondRef) (p : WaitWhilePhase) :
    (p.part c).Knows p.grip p.me? := by
  cases p with
  | waiting start rest p => exact p.part_knows c rest
  | _ => exact .aside

/-- In a scope, by the lock or the unlock it is in. -/
theorem ScopePhase.part_knows (p : ScopePhase) : p.part.Knows p.grip p.me? := by
  cases p with
  | locking p => exact .locking (.inl rfl)
  | body => exact .aside
  | unlocking p pending => exact .unlocking (.inl rfl)

/-- In a scope that is unlocked for a while, likewise. -/
theorem UnlockedPhase.part_knows (p : UnlockedPhase) : p.part.Knows p.grip p.me? := by
  cases p with
  | unlocking p => exact .unlocking (.inl rfl)
  | body => exact .aside
  | relocking p pending => exact .locking (.inl rfl)

/-- In a run-once call, likewise. -/
theorem OncePhase.part_knows (p : OncePhase) : p.part.Knows p.grip p.me? := by
  cases p with
  | locking p => exact .locking (.inl rfl)
  | unlocking p finish => exact .unlocking (.inl rfl)
  | _ => exact .aside

/-- What any call knows of a mutex goes with the part it is in. -/
theorem Call.part_knows (l : LockRef) (s : Store) (call : Call) :
    (call.part l s).Knows (call.grip l s) call.me? := by
  have hif {k : LockRef} {part : LockPart} {g : Grip} {me : Option ThreadId}
      (h : part.Knows g me) :
      LockPart.Knows (if k = l then part else .aside) (if k = l then g else .none) me := by
    split
    · exact h
    · exact .aside
  cases call with
  | lock k p => exact hif (.locking (.inl rfl))
  | unlock k p => exact hif (.unlocking (.inl rfl))
  | scope k p => exact hif p.part_knows
  | unlocked k p => exact hif p.part_knows
  | wait c k timeout p => exact hif (p.part_knows c timeout)
  | waitWhile c k timeout p => exact hif (p.part_knows c)
  | once o p => exact hif p.part_knows
  | _ => exact .aside

namespace LockPart.Knows

variable {part : LockPart} {g : Grip} {me : Option ThreadId}

/-- What has passed the checks is done by the holder. -/
theorem of_unchecked (h : part.Knows g me) (hpart : part.isUnchecked = true) : g = .blank := by
  cases h with
  | unlocking => cases ‹UnlockPhase› <;> first | rfl | cases hpart
  | parking => cases ‹NativeWaitPhase› <;> first | rfl | cases hpart
  | _ => cases hpart

/-- A check is made with the thread's own identity, and not between the two writes. -/
theorem of_check (h : part.Knows g me) {id : ThreadId} (hpart : part.check? = some id) :
    me = some id ∧ g ≠ .none ∧ g ≠ .blank := by
  cases h with
  | aside => cases hpart
  | checking => exact ⟨hpart, by simp, by simp⟩
  | locking hbase =>
    cases ‹LockPhase› <;> cases hpart
    rcases hbase with rfl | rfl <;> exact ⟨rfl, by simp [LockPhase.grip, Grip.meet]⟩
  | unlocking hbase =>
    cases ‹UnlockPhase› <;> cases hpart
    rcases hbase with rfl | rfl <;> exact ⟨rfl, by simp [UnlockPhase.grip, Grip.meet]⟩
  | parking =>
    cases ‹NativeWaitPhase› <;> cases hpart
    exact ⟨rfl, by simp [NativeWaitPhase.grip]⟩

end LockPart.Knows

theorem LockStep.stays {me : ThreadId} {lock lock' : Option LockState} {g g' : Grip}
    (h : LockStep t me lock g lock' g') (hinit : lock ≠ none) : lock' ≠ none := by
  cases h <;> first | exact hinit | simp

/-! ## Moves

For one mutex, a move is one of three events: a thread takes a step, and then the deed of that
thread's code is done; no thread takes one; or the mutex comes or goes, and no call works on it. -/

/-- What a thread learns of a panic: the process ends if it was unwinding already. -/
def Notice.ofPanic (pending : Option Panic) (why : Panic) : Notice :=
  if pending.isSome then .aborted else .panicked why

namespace Machine

variable {m m' : Machine} {move : Move}

/-- The code of mutex `l` that thread `t` is in. -/
def part (m : Machine) (l : LockRef) (t : Tid) : LockPart := m.see (Call.part l m.store) .aside t

/-- What that code does with the platform lock. -/
def deed (m : Machine) (l : LockRef) (t : Tid) : LockDeed := (m.part l t).deed l m.store

/-- What a move is for the platform lock of mutex `l`. -/
inductive LockEvent (m : Machine) (l : LockRef) (move : Move) (m' : Machine) : Prop
  | step {t : Tid} {choice : Choice} (hmove : move = .advance t choice)
    (hmoves : (m.advance t choice).2 ≠ .blocked)
    (hstays : m.store.lock l ≠ none → m'.store.lock l ≠ none)
    (hdoes : (m.deed l t).Does t (m.store.holder l) (m'.store.holder l))
  /-- No thread takes a step. -/
  | idle (hmove : ∀ t choice, move = .advance t choice → (m.advance t choice).2 = .blocked)
    (hsame : m'.store.lock l = m.store.lock l)
  /-- The mutex goes away or is new, and no call works on it. -/
  | renew (hunused : ∀ t, ∀ call ∈ m.calls.get t, .mutex l ∉ call.objects m.store)
    (hgone : m'.store.lock l = none ∨ m.store.nextHandle ≤ l ∧ m'.store.lock l = some .free)

/-- A thread that has a place in the code of a mutex is in a call. -/
theorem call?_of_part {l : LockRef} {t : Tid} (h : m.part l t ≠ .aside) :
    ∃ call outer, m.calls.get t = call :: outer ∧ m.part l t = call.part l m.store := by
  cases hget : m.calls.get t with
  | nil => exact absurd (by rw [part, see, call?, hget]; rfl) h
  | cons call outer => exact ⟨call, outer, rfl, see_of_get hget⟩

/-- No thread is in the code of a mutex on which no call works. -/
theorem part_of_unused {l : LockRef} {t : Tid}
    (h : ∀ call ∈ m.calls.get t, .mutex l ∉ call.objects m.store) : m.part l t = .aside := by
  apply Decidable.byContradiction
  intro hpart
  obtain ⟨call, outer, hget, heq⟩ := call?_of_part hpart
  exact h call (hget ▸ List.mem_cons_self) (Call.mem_objects_of_part (heq ▸ hpart))

theorem Sound.not_mem_of_new (hsound : m.Sound) {l : Nat} (hl : m.store.nextHandle ≤ l) {t : Tid}
    {call : Call} (hcall : call ∈ m.calls.get t) : .mutex l ∉ call.objects m.store := by
  intro hmem
  exact Nat.not_lt.2 hl (Call.handle_lt_of_knows (hsound.known t call hcall) hmem)

/-- What a thread learns from a step of its innermost call that goes on. -/
theorem advance_next {t : Tid} {choice : Choice} {call call' : Call} {outer : List Call}
    {s' : Store} (hsound : m.Sound) (hget : m.calls.get t = call :: outer)
    (hstep : call.step t choice m.store = .next s' call') :
    (m.advance t choice).2 = (if call'.atBody then .body else .working) ∧
      ∀ l, (m.advance t choice).1.part l t = call'.part l s' := by
  have hadvance : m.advance t choice =
      (adopt ⟨s', m.calls.set t (call' :: outer)⟩ call'.child?,
        if call'.atBody then .body else .working) := by
    simp only [advance, hget, hstep]
  have hstore := adopt_store ⟨s', m.calls.set t (call' :: outer)⟩ call'.child?
  rw [hadvance]
  refine ⟨rfl, fun l => ?_⟩
  rw [part, hstore]
  exact see_next hsound hget hstep

/-- What a thread learns when a check of its innermost call fails. -/
theorem advance_fault {t : Tid} {choice : Choice} {call : Call} {outer : List Call} {s' : Store}
    {why : Panic} {pending : Option Panic} (hget : m.calls.get t = call :: outer)
    (hstep : call.step t choice m.store = if pending.isSome then .abort s' else .fault s' why) :
    (m.advance t choice).2 = .ofPanic pending why := by
  simp only [advance, hget, hstep, Notice.ofPanic]
  cases pending <;> rfl

/-- A thread is stopped when the step of its innermost call is. -/
theorem advance_blocked {t : Tid} {choice : Choice} {call : Call} {outer : List Call}
    (hget : m.calls.get t = call :: outer) :
    (m.advance t choice).2 = .blocked ↔ call.step t choice m.store = .blocked := by
  simp only [advance, hget]
  cases call.step t choice m.store with
  | next s' call' => cases hbody : call'.atBody <;> simp [hbody]
  | _ => simp

/-- A step of a thread is an event of the first kind, or destroys the mutex, or cannot be taken. -/
theorem lockEvent_advance {t : Tid} {choice : Choice}
    (hallows : m.allows (.advance t choice) = true) (hsound : m.Sound) (hids : m.Identified)
    (l : LockRef) : m.LockEvent l (.advance t choice) (m.advance t choice).1 := by
  cases hget : m.calls.get t with
  | nil =>
    refine .idle ?_ ?_
    · rintro t' choice' heq
      cases heq
      simp [advance, hget]
    · simp [advance, hget]
  | cons call outer =>
    have hdeed : m.deed l t = (call.part l m.store).deed l m.store := by
      rw [deed, part, see_of_get hget]
    have hstore := advance_store choice hget
    by_cases hblocked : call.step t choice m.store = .blocked
    · refine .idle ?_ ?_
      · rintro t' choice' heq
        cases heq
        exact (advance_blocked hget).2 hblocked
      · rw [hstore, hblocked, Progress.storeFrom]
    · have hmoves := mt (advance_blocked (m := m) hget).1 hblocked
      by_cases hdestroy : ∃ o unwinding, call = .destroy o unwinding
      · obtain ⟨o, unwinding, rfl⟩ := hdestroy
        have hdestroyed : (m.advance t choice).1.store = (m.store.destroy o unwinding).1 := by
          rw [hstore, (Call.ends_destroy t choice m.store o unwinding).storeFrom]
        have hunused : m.unused o = true := by
          simpa [allows, call?_of_get hget] using hallows
        -- the destroyed object takes the mutex with it, or has nothing to do with it
        rcases m.store.destroy_lock o unwinding l with hsame | ⟨hgone, hpart⟩
        · rw [← hdestroyed] at hsame
          refine .step rfl hmoves (fun hinit => hsame ▸ hinit) ?_
          rw [hdeed]
          exact Store.holder_congr hsame
        · exact .renew (fun _ _ hcall => not_mem_objects hsound hunused hpart hcall)
            (.inl (hdestroyed ▸ hgone))
      · have howns := hids.owns (call?_of_get hget)
        have hkind : ∀ o unwinding, call ≠ .destroy o unwinding := fun o unwinding heq =>
          hdestroy ⟨o, unwinding, heq⟩
        have hcommits : (call.step t choice m.store).Commits t l m.store _ :=
          Call.step_commits howns hkind
        have hlocks : (call.step t choice m.store).Keeps
            fun s' => m.store.lock l ≠ none → s'.lock l ≠ none :=
          (Call.step_locks l howns hkind).mono (fun _ _ => LockStep.stays)
            (fun _ _ => LockStep.stays) fun _ => LockStep.stays
        refine .step rfl hmoves ?_ ?_
        · rw [hstore]
          exact hlocks.storeFrom id
        · rw [hdeed, hstore]
          generalize call.step t choice m.store = p at hcommits hblocked
          cases p with
          | blocked => exact absurd rfl hblocked
          | _ => exact hcommits

/-- Every move is one of these events for a mutex. -/
theorem lockEvent {move : Move} (hallows : m.allows move = true) (hsound : m.Sound)
    (hids : m.Identified) (l : LockRef) : m.LockEvent l move (m.apply move) := by
  cases move with
  | advance t choice => exact lockEvent_advance hallows hsound hids l
  | create c =>
    rcases (Store.grows_apply m.store c).locks l with hsame | ⟨hnew, -, hgone | hfree⟩
    · exact .idle (by simp) hsame
    · exact .renew (fun _ _ => hsound.not_mem_of_new hnew) (.inl hgone)
    · exact .renew (fun _ _ => hsound.not_mem_of_new hnew) (.inr ⟨hnew, hfree⟩)
  | endBody t e => exact .idle (by simp) (by rw [apply, endBody_store])
  | _ => exact .idle (by simp) rfl

/-- What a thread knows of a mutex in whose code it is. -/
theorem part_knows (l : LockRef) (t : Tid) (hids : m.Identified) :
    ∃ me, (m.part l t).Knows (m.grip l t) me ∧ m.store.Owns t me := by
  cases hcall : m.call? t with
  | none =>
    refine ⟨none, ?_, fun id hid => nomatch hid⟩
    rw [show m.part l t = .aside by rw [part, see, hcall]; rfl]
    exact .aside
  | some call =>
    refine ⟨call.me?, ?_, hids.owns hcall⟩
    rw [part, grip, see_of_call? hcall, see_of_call? hcall]
    exact call.part_knows l m.store

/-- The platform lock is released only past the checks. -/
theorem deed_of_release {l : LockRef} {t : Tid} (h : m.deed l t = .release) :
    (m.part l t).isUnchecked = true := by
  unfold deed at h
  cases hpart : m.part l t with
  | unlocking p pending =>
    cases p <;> first | rfl | simp [hpart, LockPart.deed, UnlockPhase.deed] at h
  | parking c timeout p =>
    cases p <;> first | rfl | simp [hpart, LockPart.deed, NativeWaitPhase.deed] at h
  | locking p pending => cases p <;> simp [hpart, LockPart.deed, LockPhase.deed] at h
  | _ => simp [hpart, LockPart.deed] at h

/-- What has passed the checks is done by the thread that has the platform lock. -/
theorem holder_of_unchecked {l : LockRef} {t : Tid} (hids : m.Identified) (hholds : m.Holds l)
    (h : (m.part l t).isUnchecked = true) : m.store.holder l = some t := by
  obtain ⟨me, hknows, -⟩ := part_knows l t hids
  have hfits := hholds.grips t
  rw [hknows.of_unchecked h] at hfits
  exact Store.holder_of_lock hfits

end Machine

/-! ## Who has a mutex

Having a mutex is defined by the history alone: the thread has taken the platform lock, and has not
released it since. Neither the owner word nor the lock is looked at, so that what they say can be
compared with it. -/

namespace Run

section

variable (r : Run) (l : LockRef)

/-- Thread `t` takes the platform lock of mutex `l` in move `i`. -/
def Takes (t : Tid) (i : Nat) : Prop :=
  ∃ choice, r.move i = .advance t choice ∧ ((r.state i).advance t choice).2 ≠ .blocked ∧
    (r.state i).deed l t = .take

/-- Thread `t` releases the platform lock of mutex `l` in move `i`. -/
def Releases (t : Tid) (i : Nat) : Prop :=
  ∃ choice, r.move i = .advance t choice ∧ ((r.state i).advance t choice).2 ≠ .blocked ∧
    (r.state i).deed l t = .release

/-- Thread `t` took the platform lock in move `j` and has not released it before move `i`. -/
structure HasSince (t : Tid) (j i : Nat) : Prop where
  before : j < i
  takes : r.Takes l t j
  keeps : ∀ n, j < n → n < i → ¬ r.Releases l t n
  initialized : ∀ n, j < n → n ≤ i → (r.state n).store.lock l ≠ none

/-- Thread `t` has mutex `l` before move `i`. -/
def Has (t : Tid) (i : Nat) : Prop := ∃ j, r.HasSince l t j i

end

variable {r : Run} {l : LockRef} {t u : Tid} {i j : Nat}

theorem lockEvent (r : Run) (l : LockRef) (i : Nat) :
    (r.state i).LockEvent l (r.move i) (r.state (i + 1)) :=
  Machine.lockEvent (r.state_allows i) (r.state_sound i) (r.state_identified i) l

theorem part_of_deed (h : (r.state i).deed l t ≠ .keep) : (r.state i).part l t ≠ .aside := by
  intro hpart
  rw [Machine.deed, hpart] at h
  exact h rfl

/-- A mutex that is taken exists. -/
theorem Takes.known (h : r.Takes l t i) : l < (r.state i).store.nextHandle := by
  obtain ⟨choice, -, -, hdeed⟩ := h
  apply Nat.lt_of_not_le
  intro hnew
  have haside : (r.state i).part l t = .aside :=
    Machine.part_of_unused fun _ => (r.state_sound i).not_mem_of_new hnew
  exact part_of_deed (by simp [hdeed]) haside

/-- The platform lock is taken only while nobody has it. -/
theorem Takes.does (h : r.Takes l t i) :
    (r.state i).store.holder l = none ∧ (r.state (i + 1)).store.holder l = some t := by
  obtain ⟨choice, hmove, hmoves, hdeed⟩ := h
  cases r.lockEvent l i with
  | step hmove' _ _ hdoes =>
    cases hmove.symm.trans hmove'
    rw [hdeed] at hdoes
    exact hdoes
  | idle hblocked => exact absurd (hblocked t choice hmove) hmoves
  | renew hunused =>
    exact absurd (Machine.part_of_unused (hunused t)) (part_of_deed (by simp [hdeed]))

/-- The platform lock is released only by the thread that has it. -/
theorem Releases.does (h : r.Releases l t i) :
    (r.state i).store.holder l = some t ∧ (r.state (i + 1)).store.holder l = none := by
  obtain ⟨choice, hmove, hmoves, hdeed⟩ := h
  refine ⟨Machine.holder_of_unchecked (r.state_identified i) (r.state_holds l i)
    (Machine.deed_of_release hdeed), ?_⟩
  cases r.lockEvent l i with
  | step hmove' _ _ hdoes =>
    cases hmove.symm.trans hmove'
    rw [hdeed] at hdoes
    exact hdoes
  | idle hblocked => exact absurd (hblocked t choice hmove) hmoves
  | renew hunused =>
    exact absurd (Machine.part_of_unused (hunused t)) (part_of_deed (by simp [hdeed]))

/-- The holder of a mutex that stays changes only when it is taken or released, and a new mutex
has none. -/
theorem holder_succ (hinit : (r.state (i + 1)).store.lock l ≠ none) :
    (r.state (i + 1)).store.holder l = (r.state i).store.holder l ∨
      (∃ u, r.Takes l u i ∨ r.Releases l u i) ∨
      (r.state i).store.nextHandle ≤ l ∧ (r.state (i + 1)).store.holder l = none := by
  cases r.lockEvent l i with
  | @step u choice hmove hmoves _ hdoes =>
    cases hdeed : (r.state i).deed l u with
    | keep =>
      rw [hdeed] at hdoes
      exact .inl hdoes
    | take => exact .inr (.inl ⟨u, .inl ⟨choice, hmove, hmoves, hdeed⟩⟩)
    | release => exact .inr (.inl ⟨u, .inr ⟨choice, hmove, hmoves, hdeed⟩⟩)
  | idle _ hsame => exact .inl (Store.holder_congr hsame)
  | renew _ hgone =>
    rcases hgone with hgone | ⟨hnew, hfree⟩
    · exact absurd hgone hinit
    · exact .inr (.inr ⟨hnew, Store.holder_of_lock hfree⟩)

/-- A thread that took the platform lock and has not released it still stands in the lock. -/
theorem HasSince.holder (h : r.HasSince l t j i) : (r.state i).store.holder l = some t := by
  obtain ⟨hji, htakes, hkeeps, hinit⟩ := h
  induction hji with
  | refl => exact htakes.does.2
  | @step i hji ih =>
    have hji : j < i := hji
    have hholder := ih (fun n hjn hni => hkeeps n hjn (Nat.lt_succ_of_lt hni))
      fun n hjn hni => hinit n hjn (Nat.le_succ_of_le hni)
    have hknown := Nat.lt_of_lt_of_le htakes.known (r.nextHandle_mono (Nat.le_of_lt hji))
    rcases holder_succ (hinit (i + 1) (Nat.lt_succ_of_lt hji) (Nat.le_refl _)) with
      hsame | ⟨u, htakes' | hreleases⟩ | ⟨hnew, -⟩
    · exact hsame.trans hholder
    · cases hholder.symm.trans htakes'.does.1
    · obtain rfl : t = u := Option.some.inj (hholder.symm.trans hreleases.does.1)
      exact absurd hreleases (hkeeps i hji (Nat.lt_succ_self i))
    · exact absurd hknown (Nat.not_lt.2 hnew)

/-- Who stands in the lock stood there before, unless it has just taken it. -/
theorem holder_of_succ (hinit : (r.state (i + 1)).store.lock l ≠ none)
    (h : (r.state (i + 1)).store.holder l = some t) (htakes : ¬ r.Takes l t i) :
    (r.state i).store.holder l = some t := by
  rcases holder_succ hinit with hsame | ⟨u, htakes' | hreleases⟩ | ⟨-, hfree⟩
  · exact hsame.symm.trans h
  · obtain rfl : t = u := Option.some.inj (h.symm.trans htakes'.does.2)
    exact absurd htakes' htakes
  · cases h.symm.trans hreleases.does.2
  · cases h.symm.trans hfree

/-- Whoever stands in the lock took it and has not released it since. -/
theorem has_of_holder (h : (r.state i).store.holder l = some t) : r.Has l t i := by
  -- by induction on the moves: the holder has just taken the mutex, or was the holder and did not
  -- release it
  induction i with
  | zero => cases h
  | succ i ih =>
    have hinit : (r.state (i + 1)).store.lock l ≠ none := by
      intro hnone
      simp [Store.holder, hnone] at h
    by_cases htakes : r.Takes l t i
    · refine ⟨i, Nat.lt_succ_self i, htakes, fun n hin hni => by omega, ?_⟩
      intro n hin hni
      obtain rfl : n = i + 1 := Nat.le_antisymm hni hin
      exact hinit
    · have hreleases : ¬ r.Releases l t i := by
        intro hreleases
        cases h.symm.trans hreleases.does.2
      obtain ⟨j, hsince⟩ := ih (holder_of_succ hinit h htakes)
      refine ⟨j, Nat.lt_succ_of_lt hsince.before, hsince.takes, ?_, ?_⟩
      · intro n hjn hni
        rcases Nat.lt_or_eq_of_le (Nat.le_of_lt_succ hni) with hni | rfl
        · exact hsince.keeps n hjn hni
        · exact hreleases
      · intro n hjn hni
        rcases Nat.lt_or_eq_of_le hni with hni | rfl
        · exact hsince.initialized n hjn (Nat.le_of_lt_succ hni)
        · exact hinit

theorem holder_iff_has : (r.state i).store.holder l = some t ↔ r.Has l t i :=
  ⟨has_of_holder, fun ⟨_, hsince⟩ => hsince.holder⟩

/-! ### While a thread is in the code of a mutex

A check of the owner word is several steps away from the beginning of its call, and the others move
in between. They can neither give the thread the mutex nor take it away, nor destroy the mutex,
because the thread works on it; so what was so at the beginning is so at the check (`At.until`). -/

/-- A thread goes on in the code of a mutex only when it takes a step. -/
theorem part_stays (hpart : (r.state i).part l t ≠ .aside)
    (hmove : ∀ choice, r.move i ≠ .advance t choice) :
    (r.state (i + 1)).part l t = (r.state i).part l t := by
  obtain ⟨call, outer, hget, heq⟩ := Machine.call?_of_part hpart
  have hbody : call.atBody = false := Call.not_body_of_part (heq ▸ hpart)
  have hkept := (r.state_change i).calls_kept (r.state_sound i) hget hbody hmove
  rw [heq, Machine.part, Machine.see_of_get hkept]
  exact Call.part_congr ((r.state_sound i).known t _ (hget ▸ List.mem_cons_self))
    (r.state_change i).handles.2

/-- A mutex that a call works on stays initialized. -/
theorem lock_stays_of_mem {call : Call} (hcall : call ∈ (r.state i).calls.get t)
    (hmem : .mutex l ∈ call.objects (r.state i).store)
    (hinit : (r.state i).store.lock l ≠ none) : (r.state (i + 1)).store.lock l ≠ none := by
  cases r.lockEvent l i with
  | step _ _ hstays => exact hstays hinit
  | idle _ hsame => exact hsame ▸ hinit
  | renew hunused => exact absurd hmem (hunused t call hcall)

/-- A mutex in whose code a thread is stays initialized. -/
theorem lock_stays (hpart : (r.state i).part l t ≠ .aside)
    (hinit : (r.state i).store.lock l ≠ none) : (r.state (i + 1)).store.lock l ≠ none := by
  obtain ⟨call, outer, hget, heq⟩ := Machine.call?_of_part hpart
  exact lock_stays_of_mem (hget ▸ List.mem_cons_self)
    (Call.mem_objects_of_part (heq ▸ hpart)) hinit

/-- Whether a thread has a mutex that it works on changes only in its own steps on it. -/
theorem has_succ (hpart : (r.state i).part l t ≠ .aside)
    (hinit : (r.state i).store.lock l ≠ none)
    (hmove : ∀ choice, r.move i = .advance t choice → (r.state i).deed l t = .keep) :
    r.Has l t (i + 1) ↔ r.Has l t i := by
  rw [← holder_iff_has, ← holder_iff_has]
  rcases holder_succ (lock_stays hpart hinit) with hsame | ⟨u, htakes | hreleases⟩ | ⟨hnew, -⟩
  · rw [hsame]
  · have hu : u ≠ t := by
      rintro rfl
      obtain ⟨choice, heq, -, hdeed⟩ := htakes
      cases (hmove choice heq).symm.trans hdeed
    simp [htakes.does.1, htakes.does.2, hu]
  · have hu : u ≠ t := by
      rintro rfl
      obtain ⟨choice, heq, -, hdeed⟩ := hreleases
      cases (hmove choice heq).symm.trans hdeed
    simp [hreleases.does.1, hreleases.does.2, hu]
  · exact absurd (Machine.part_of_unused fun _ => (r.state_sound i).not_mem_of_new hnew) hpart

/-- Move `n` is the first step of thread `t` from move `i` on, and this is what comes of it. -/
structure NextStep (r : Run) (t : Tid) (i n : Nat) (notice : Notice) : Prop where
  le : i ≤ n
  step : ∃ choice, r.move n = .advance t choice ∧ ((r.state n).advance t choice).2 = notice
  quiet : ∀ k, i ≤ k → k < n → ∀ choice, r.move k ≠ .advance t choice

/-- What the moves of the others keep is so until a thread takes its next step. -/
theorem NextStep.keeps {n : Nat} {notice : Notice} {P : Nat → Prop}
    (hnext : r.NextStep t i n notice) (h : P i)
    (hstep : ∀ k, (∀ choice, r.move k ≠ .advance t choice) → P k → P (k + 1)) : P n := by
  obtain ⟨hle, -, hquiet⟩ := hnext
  induction hle with
  | refl => exact h
  | @step n hin ih =>
    exact hstep n (hquiet n hin (Nat.lt_succ_self n))
      (ih fun k hik hkn => hquiet k hik (Nat.lt_succ_of_lt hkn))

/-- There is only one next step. -/
theorem NextStep.unique {n n' : Nat} {notice notice' : Notice} (h : r.NextStep t i n notice)
    (h' : r.NextStep t i n' notice') : n = n' := by
  obtain ⟨choice, hmove, -⟩ := h.step
  obtain ⟨choice', hmove', -⟩ := h'.step
  rcases Nat.lt_trichotomy n n' with hlt | heq | hlt
  · exact absurd hmove (h'.quiet n h.le hlt choice)
  · exact heq
  · exact absurd hmove' (h.quiet n' h'.le hlt choice')

/-- Thread `t` is in this code of mutex `l`, which is initialized, and has the mutex or not. -/
structure At (r : Run) (l : LockRef) (t : Tid) (part : LockPart) (has : Prop) (i : Nat) : Prop where
  part : (r.state i).part l t = part
  initialized : (r.state i).store.lock l ≠ none
  has : r.Has l t i ↔ has

/-- Nothing changes for a thread in the code of a mutex until it takes a step. -/
theorem At.until {part : LockPart} {has : Prop} {n : Nat} {notice : Notice}
    (h : r.At l t part has i) (hpart : part ≠ .aside) (hnext : r.NextStep t i n notice) :
    r.At l t part has n := by
  refine hnext.keeps (P := r.At l t part has) h fun k hmove hat => ?_
  have hne : (r.state k).part l t ≠ .aside := hat.part ▸ hpart
  exact ⟨(part_stays hne hmove).trans hat.part, lock_stays hne hat.initialized,
    (has_succ hne hat.initialized fun choice heq => absurd heq (hmove choice)).trans hat.has⟩

/-! ### The checks of the owner word

A relock is noticed by the comparison of two words, which could in principle lie: the owner word is
empty while its thread is about to write it. But a thread that makes the comparison is not about to
write, and no other thread has its identity, so what it finds is what is so (`check_iff`). -/

/-- A check compares the owner word with its thread's own identity, and finds it there exactly if
the thread has the mutex. -/
theorem check_iff {k : LockState} {me : ThreadId} (hk : (r.state i).store.lock l = some k)
    (hcheck : ((r.state i).part l t).check? = some me) :
    me = (r.state i).store.ids.own.get t ∧ me ≠ .nobody ∧ (k.owner = me ↔ r.Has l t i) := by
  obtain ⟨seen, hknows, howns⟩ := Machine.part_knows l t (r.state_identified i)
  obtain ⟨hme, -, hgrip⟩ := hknows.of_check hcheck
  obtain ⟨rfl, hne⟩ := howns me hme
  have hholding := r.state_holds l i
  refine ⟨rfl, hne, ?_⟩
  rw [← holder_iff_has, Store.holder_of_lock hk]
  constructor
  · intro howner
    exact hholding.holder_of_owner (r.state_identified i).distinct hk howner hne
  · intro hholder
    exact hholding.owner_of_holder hk hholder hgrip

variable {choice : Choice} {has : Prop} {pending : Option Panic} {me : ThreadId}

/-- A thread in the code of a mutex is in a call that is there. -/
theorem At.exists_call {part : LockPart} (h : r.At l t part has i) (hpart : part ≠ .aside) :
    ∃ call outer, (r.state i).calls.get t = call :: outer ∧
      call.part l (r.state i).store = part := by
  have hne : (r.state i).part l t ≠ .aside := h.part ▸ hpart
  obtain ⟨call, outer, hget, heq⟩ := Machine.call?_of_part hne
  exact ⟨call, outer, hget, heq.symm.trans h.part⟩

/-- A thread goes on in the code of a mutex, and does nothing to the platform lock yet. -/
theorem At.next {φ ρ : Type} {part : LockPart} {call : Call} {outer : List Call} {s' : Store}
    {wrap : φ → Call} {phase : φ} {code : φ → LockPart} (h : r.At l t part has i)
    (hpart : part ≠ .aside) (hkeep : ∀ s, part.deed l s = .keep)
    (hmove : r.move i = .advance t choice) (hget : (r.state i).calls.get t = call :: outer)
    (hcarries : (call.step t choice (r.state i).store).Carries wrap
      ((.next s' phase : Progress φ ρ).whileUnwinding pending))
    (hwrap : ∀ s' q, (r.state i).store.Frame s' → (wrap q).part l s' = code q)
    (hcode : code phase ≠ .aside) :
    ((r.state i).advance t choice).2 = .working ∧ r.At l t (code phase) has (i + 1) := by
  have hstep := hcarries.next
  have hpart' := hwrap s' phase (Machine.frame_of_next hstep)
  obtain ⟨hnotice, hafter⟩ := Machine.advance_next (r.state_sound i) hget hstep
  have hne : (r.state i).part l t ≠ .aside := h.part ▸ hpart
  have hdeed : (r.state i).deed l t = .keep := by rw [Machine.deed, h.part, hkeep]
  have hbody : (wrap phase).atBody = false := Call.not_body_of_part (hpart'.symm ▸ hcode)
  refine ⟨by rw [hnotice, if_neg (by simp [hbody])], ?_, lock_stays hne h.initialized,
    (has_succ hne h.initialized fun _ _ => hdeed).trans h.has⟩
  rw [state_succ, hmove]
  exact (hafter l).trans hpart'

/-- A thread that begins to lock a mutex is going to check whether it has it. -/
theorem At.lock_entry (h : r.At l t (.locking .entry pending) has i)
    (hmove : r.move i = .advance t choice) :
    ((r.state i).advance t choice).2 = .working ∧
      ∃ me, r.At l t (.locking (.check me) pending) has (i + 1) := by
  obtain ⟨call, outer, hget, hpart⟩ := h.exists_call (by simp)
  obtain ⟨wrap, hcarries, hwrap⟩ := Call.step_locking t choice hpart
  simp only [LockPhase.step, Option.isNone_iff_eq_none, h.initialized, if_false] at hcarries
  obtain ⟨hnotice, hat⟩ :=
    h.next (by simp) (fun _ => rfl) hmove hget hcarries hwrap (by simp)
  exact ⟨hnotice, _, hat⟩

/-- A thread that begins to unlock a mutex is going to check whether it has it. -/
theorem At.unlock_entry (h : r.At l t (.unlocking .entry pending) has i)
    (hmove : r.move i = .advance t choice) :
    ((r.state i).advance t choice).2 = .working ∧
      ∃ me, r.At l t (.unlocking (.check me) pending) has (i + 1) := by
  obtain ⟨call, outer, hget, hpart⟩ := h.exists_call (by simp)
  obtain ⟨wrap, hcarries, hwrap⟩ := Call.step_unlocking t choice hpart
  simp only [UnlockPhase.step, Option.isNone_iff_eq_none, h.initialized, if_false] at hcarries
  obtain ⟨hnotice, hat⟩ :=
    h.next (by simp) (fun _ => rfl) hmove hget hcarries hwrap (by simp)
  exact ⟨hnotice, _, hat⟩

/-- A check fails with this violation: it is logged, and it is the panic or ends the process. -/
def Fails (r : Run) (t : Tid) (i : Nat) (pending : Option Panic) (v : Violation) : Prop :=
  ∀ choice, ∃ call outer, (r.state i).calls.get t = call :: outer ∧
    call.step t choice (r.state i).store =
      if pending.isSome then .abort ((r.state i).store.report (.violation v))
      else .fault ((r.state i).store.report (.violation v)) (.violation v)

theorem Fails.notice {v : Violation} (h : r.Fails t i pending v) (choice : Choice) :
    ((r.state i).advance t choice).2 = .ofPanic pending (.violation v) := by
  obtain ⟨call, outer, hget, hstep⟩ := h choice
  exact Machine.advance_fault hget hstep

/-- A thread that has a mutex and checks this before it locks fails. -/
theorem At.lock_check (h : r.At l t (.locking (.check me) pending) True i) :
    r.Fails t i pending (.relocked ((r.state i).store.ids.own.get t)) := by
  intro choice
  obtain ⟨call, outer, hget, hpart⟩ := h.exists_call (by simp)
  obtain ⟨wrap, hcarries, -⟩ := Call.step_locking t choice hpart
  obtain ⟨k, hk⟩ := Option.ne_none_iff_exists'.1 h.initialized
  obtain ⟨rfl, -, howner⟩ := check_iff hk (by rw [h.part]; rfl)
  have hfound := howner.2 (h.has.2 trivial)
  simp only [LockPhase.step, Store.withLock, hk, hfound, if_true, Store.violate] at hcarries
  exact ⟨call, outer, hget, hcarries.fault⟩

/-- A thread that does not have a mutex and checks this before it unlocks fails. -/
theorem At.unlock_check (h : r.At l t (.unlocking (.check me) pending) False i) :
    r.Fails t i pending (.notHolder .unlock ((r.state i).store.ids.own.get t)) := by
  intro choice
  obtain ⟨call, outer, hget, hpart⟩ := h.exists_call (by simp)
  obtain ⟨wrap, hcarries, -⟩ := Call.step_unlocking t choice hpart
  obtain ⟨k, hk⟩ := Option.ne_none_iff_exists'.1 h.initialized
  obtain ⟨rfl, -, howner⟩ := check_iff hk (by rw [h.part]; rfl)
  have hmissed := mt howner.1 (fun hhas => h.has.1 hhas)
  simp only [UnlockPhase.step, Store.withLock, hk, hmissed, if_false, Store.violate] at hcarries
  exact ⟨call, outer, hget, hcarries.fault⟩

/-! ### Mutual exclusion

From its beginning to its check a lock takes two steps of its thread. The step lemmas above are put
together in `relock_refused` and `unlock_refused`; `mutex_exclusive` then collects, for one moment
of a run, everything that is so of an initialized mutex. -/

/-- From code `part` on, the thread panics in its second step, and never waits. -/
def Refuses (r : Run) (t : Tid) (i : Nat) (pending : Option Panic) (why : ThreadId → Violation) :
    Prop :=
  ∀ a b first second, r.NextStep t i a first → r.NextStep t (a + 1) b second →
    first = .working ∧
      second = .ofPanic pending (.violation (why ((r.state b).store.ids.own.get t)))

/-- A thread that has a mutex and locks it panics in its second step. -/
theorem At.relock_refused (h : r.At l t (.locking .entry pending) True i) :
    r.Refuses t i pending .relocked := by
  intro a b first second hfirst hsecond
  obtain ⟨choice, hmove, rfl⟩ := hfirst.step
  obtain ⟨hnotice, me, hchecking⟩ := (h.until (by simp) hfirst).lock_entry hmove
  obtain ⟨choice', -, rfl⟩ := hsecond.step
  exact ⟨hnotice, (hchecking.until (by simp) hsecond).lock_check.notice choice'⟩

/-- A thread that does not have a mutex and unlocks it panics in its second step. -/
theorem At.unlock_refused (h : r.At l t (.unlocking .entry pending) False i) :
    r.Refuses t i pending (.notHolder .unlock) := by
  intro a b first second hfirst hsecond
  obtain ⟨choice, hmove, rfl⟩ := hfirst.step
  obtain ⟨hnotice, me, hchecking⟩ := (h.until (by simp) hfirst).unlock_entry hmove
  obtain ⟨choice', -, rfl⟩ := hsecond.step
  exact ⟨hnotice, (hchecking.until (by simp) hsecond).unlock_check.notice choice'⟩

/-- Nobody has taken the platform lock after thread `t` did in move `j`. -/
def Last (r : Run) (l : LockRef) (j i : Nat) : Prop :=
  ∀ n u, j < n → n < i → ¬ r.Takes l u n

/-- While a thread has the mutex, nobody takes it. -/
theorem HasSince.last (h : r.HasSince l t j i) : r.Last l j i := by
  intro n u hjn hni htakes
  have hsince : r.HasSince l t j n :=
    ⟨hjn, h.takes, fun k hjk hkn => h.keeps k hjk (Nat.lt_trans hkn hni),
      fun k hjk hkn => h.initialized k hjk (Nat.le_trans hkn (Nat.le_of_lt hni))⟩
  cases hsince.holder.symm.trans htakes.does.1

/-- What is so of a mutex in state `k` before move `i`. -/
structure Exclusive (r : Run) (l : LockRef) (k : LockState) (i : Nat) : Prop where
  /-- At most one thread has the mutex. -/
  single : ∀ t u, r.Has l t i → r.Has l u i → t = u
  /-- The platform lock is free exactly while no thread has the mutex. -/
  free : k.isLocked = false ↔ ∀ t, ¬ r.Has l t i
  /-- It is taken only while no thread has the mutex. -/
  takes : ∀ t, r.Takes l t i → ∀ u, ¬ r.Has l u i
  /-- A thread releases no lock but its own. -/
  releases : ∀ t, r.Releases l t i → r.Has l t i
  /-- The owner word is empty, or names the thread that took the platform lock last and has not
  released it. -/
  owner : k.owner = .nobody ∨
    ∃ t j, r.HasSince l t j i ∧ r.Last l j i ∧ k.owner = (r.state i).store.ids.own.get t
  unowned : k.isLocked = false → k.owner = .nobody
  /-- Identities are not shared, so the owner word names one thread only. -/
  named : ∀ t u, (r.state i).store.ids.own.get t = (r.state i).store.ids.own.get u →
    (r.state i).store.ids.own.get t ≠ .nobody → t = u
  /-- A check finds its thread's own identity in the owner word exactly if the thread has the
  mutex. -/
  check : ∀ t me, ((r.state i).part l t).check? = some me →
    me = (r.state i).store.ids.own.get t ∧ me ≠ .nobody ∧ (k.owner = me ↔ r.Has l t i)
  /-- A thread that begins to lock a mutex that it has panics. -/
  relock : ∀ t pending, (r.state i).part l t = .locking .entry pending → r.Has l t i →
    r.Refuses t i pending .relocked
  /-- A thread that begins to unlock a mutex that it does not have panics. -/
  foreign : ∀ t pending, (r.state i).part l t = .unlocking .entry pending → ¬ r.Has l t i →
    r.Refuses t i pending (.notHolder .unlock)
  /-- What is done without a check is done by the thread that has the mutex. -/
  unchecked : ∀ t, ((r.state i).part l t).isUnchecked = true → r.Has l t i

/-- In every run, an initialized mutex is had by at most one thread, its owner word names that
thread or nobody, and so what the checks of the owner word find is what is so. -/
theorem mutex_exclusive {k : LockState} (hk : (r.state i).store.lock l = some k) :
    r.Exclusive l k i := by
  have hholder : (r.state i).store.holder l = k.holder := Store.holder_of_lock hk
  have hholding := r.state_holds l i
  have hids := r.state_identified i
  have hinit : (r.state i).store.lock l ≠ none := by simp [hk]
  -- to have a mutex is to be the holder that the platform lock knows
  have hhas (t : Tid) : r.Has l t i ↔ k.holder = some t := by rw [← holder_iff_has, hholder]
  have hfree : k.isLocked = false ↔ k.holder = none := by
    cases heq : k.holder <;> simp [LockState.isLocked, heq]
  constructor
  case single =>
    intro t u ht hu
    exact Option.some.inj (((hhas t).1 ht).symm.trans ((hhas u).1 hu))
  case free =>
    simp only [hfree, hhas, Option.eq_none_iff_forall_ne_some, ne_eq]
  case takes =>
    intro t htakes u hu
    cases (holder_iff_has.2 hu).symm.trans htakes.does.1
  case releases =>
    intro t hreleases
    exact holder_iff_has.1 hreleases.does.1
  case owner =>
    by_cases howner : k.owner = .nobody
    · exact .inl howner
    · obtain ⟨t, ht, hown⟩ := hholding.owner k hk howner
      obtain ⟨j, hsince⟩ := (hhas t).2 ht
      exact .inr ⟨t, j, hsince, hsince.last, hown.symm⟩
  case unowned =>
    intro hk'
    exact hholding.owner_of_free hk (hfree.1 hk')
  case named => exact hids.distinct
  case check =>
    intro t me
    exact check_iff hk
  case relock =>
    intro t pending hpart ht
    have hat : r.At l t (.locking .entry pending) True i := ⟨hpart, hinit, iff_true_intro ht⟩
    exact hat.relock_refused
  case foreign =>
    intro t pending hpart ht
    have hat : r.At l t (.unlocking .entry pending) False i := ⟨hpart, hinit, iff_false_intro ht⟩
    exact hat.unlock_refused
  case unchecked =>
    intro t hpart
    exact holder_iff_has.1 (Machine.holder_of_unchecked hids hholding hpart)

/-- Thread 0 locks a mutex and then locks it again. -/
def relocking : Run :=
  ofList
    ([.create (.mutex true), .begin 0 (.locking 0)] ++ steps 0 4 ++ [.begin 0 (.locking 0)] ++
      steps 0 2) (by decide +kernel)

/-- It has the mutex when it begins to lock it again, and its second step panics. -/
theorem mutex_exclusive_relocking :
    (relocking.state 7).store.lock 0 = some ⟨some 0, ⟨1⟩⟩ ∧
      relocking.Exclusive 0 ⟨some 0, ⟨1⟩⟩ 7 ∧
      ((relocking.state 8).advance 0 ⟨0, false⟩).2 = .panicked (.violation (.relocked ⟨1⟩)) :=
  have hlock : (relocking.state 7).store.lock 0 = some ⟨some 0, ⟨1⟩⟩ := by decide +kernel
  ⟨hlock, mutex_exclusive hlock, by decide +kernel⟩

end Run

end Interlock
