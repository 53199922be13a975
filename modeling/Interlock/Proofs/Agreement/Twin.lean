import Interlock.Proofs.Agreement.Trace
import Interlock.Proofs.Condition.Queue

/-!
# A portable condition variable and its twin

What a machine with portable condition variables looks like when each of them is replaced by the
platform's queue of waiters.

  * `Call.mirror`: the phase in which the twin of a call is. The twin of a registered sleeper is in
    the queue, and the twin of a sleeper that was woken, or whose time was up, takes its mutex back;
  * `Call.leaves`: the mutex that a registered sleeper has still to release. Its twin has released
    it already;
  * `Call.pends`: where a sleeper is registered, and has neither seen an event nor run out of time;
  * `Store.Twin`: the two stores agree in everything but the mutexes that are being left, the
    condition variables and the log.
-/

namespace Interlock

/-! ## Calls

The twin of a sleeper registers, joins the queue and releases its mutex all at once, in the step in
which the sleeper registers; from there to its wakeup the twin is ahead. After the wakeup it is
about to take its mutex back, and waits until the sleeper has come to that too. Everything else is
in the same phase in both. -/

def WakeupPhase.mirror : WakeupPhase → WakeupPhase
  | entry => entry
  | _ => notify

/-- The twin of a sleeper with identity `me`, which is in the queue until `deadline`. -/
def FallbackWaitPhase.mirror (me : ThreadId) (deadline : Option Instant) :
    FallbackWaitPhase → NativeWaitPhase
  | enter | register => .entry
  | handBack | unlocking _ | listen | parked _ => .queued me deadline
  | await _ => .retake me false
  | depart w | lower w | retract w | reopen w => .retake me w.isSome
  | locking (.claim _) w => .claim me w.isSome
  | locking _ w => .retake me w.isSome

def WaitPhase.mirror (me : ThreadId) (deadline : Option Instant) : WaitPhase → WaitPhase
  | fallback p => native (p.mirror me deadline)
  | p => p

def WaitWhilePhase.mirror (me : ThreadId) (deadline : Option Instant) :
    WaitWhilePhase → WaitWhilePhase
  | waiting start rest p => waiting start rest (p.mirror me deadline)
  | p => p

def Call.mirror (me : ThreadId) (deadline : Option Instant) : Call → Call
  | initCond c _ => initCond c .native
  | wakeup c event p => wakeup c event p.mirror
  | wait c l timeout p => wait c l timeout (p.mirror me deadline)
  | waitWhile c l timeout p => waitWhile c l timeout (p.mirror me deadline)
  | call => call

/-- Whether a registered sleeper has not released its caller's mutex. -/
def FallbackWaitPhase.isLeaving : FallbackWaitPhase → Bool
  | handBack | unlocking _ => true
  | _ => false

/-- Whether a registered sleeper has neither seen an event nor run out of time. -/
def FallbackWaitPhase.isPending : FallbackWaitPhase → Bool
  | handBack | unlocking _ | listen | parked _ => true
  | _ => false

def WaitPhase.isLeaving : WaitPhase → Bool
  | fallback p => p.isLeaving
  | _ => false

def WaitPhase.isPending : WaitPhase → Bool
  | fallback p => p.isPending
  | _ => false

/-- The mutex that a registered sleeper is about to release. -/
def Call.leaves : Call → Option LockRef
  | wait _ l _ p | waitWhile _ l _ (.waiting _ _ p) => if p.isLeaving then some l else none
  | _ => none

/-- Where a call sleeps, and with which mutex. -/
def Call.pends : Call → Option (CondRef × LockRef)
  | wait c l _ p | waitWhile c l _ (.waiting _ _ p) => if p.isPending then some (c, l) else none
  | _ => none

namespace Call

variable {call : Call} {me : ThreadId} {deadline : Option Instant}

theorem atBody_mirror : (call.mirror me deadline).atBody = call.atBody := by
  cases call with
  | waitWhile c l timeout p => cases p <;> rfl
  | _ => rfl

theorem objects_mirror (s s' : Store) (h : s'.onces = s.onces) :
    (call.mirror me deadline).objects s' = call.objects s := by
  cases call <;> simp only [mirror, objects, h]

theorem mirror_of_body (h : call.atBody = true) : call.mirror me deadline = call := by
  unfold atBody at h
  split at h <;> first | rfl | simp at h

theorem map_mirror {outer : List Call} (h : ∀ k ∈ outer, k.atBody = true) :
    outer.map (mirror me deadline) = outer :=
  (List.map_congr_left fun k hk => mirror_of_body (h k hk)).trans (List.map_id outer)

/-- A call that goes on after code of its client's does so in the same way as its twin. -/
theorem resume_mirror (e : BodyEnd) (h : call.atBody = true) :
    (call.resume e).mirror me deadline = call.resume e := by
  unfold atBody at h
  split at h <;> first
    | rfl
    | (rcases e with ⟨_ | _⟩ | _ <;> rfl)
    | simp at h

end Call

/-! ## Stores

The two stores differ in three places. A mutex that a registered sleeper has still to release is
held in the first store and free in the second one. A condition variable is a portable one with a
word and a gate in the first, and a queue in the second. And the logs differ, which no call
reads. -/

/-- A portable condition variable and the platform's, in whose queue are the threads that wait, as
long as no broadcast has woken them all. -/
inductive Condition.Twin (waits : Tid → LockRef → Prop) : Condition → Condition → Prop
  | raw : Twin waits .raw .raw
  | portable {f : Fallback} {q : NativeQueue} (hnodup : q.waiters.Nodup)
    (hmem : ∀ t l, (t, l) ∈ q.waiters ↔ waits t l ∧ f.events.all = false) :
    Twin waits (.fallback f) (.native q)

/-- Two stores, of which the second has the platform's condition variables. Threads that leave a
mutex still have it in the first one only. Of the threads that pend at a condition variable, the
chosen one is not in its queue. -/
structure Store.Twin (leaves : Tid → Option LockRef) (pends : Tid → Option (CondRef × LockRef))
    (chosen : CondRef → Option Tid) (s s' : Store) : Prop where
  rest : ∃ locks conds log, s' = { s with locks := locks, conds := conds, log := log }
  locks : ∀ l, (∀ u, leaves u ≠ some l) → s'.lock l = s.lock l
  left : ∀ u l, leaves u = some l → s'.lock l = some .free
  conds : ∀ c, (s.conds.get c).Twin (fun t l => pends t = some (c, l) ∧ chosen c ≠ some t)
    (s'.conds.get c)

/-- Thread `t` has no part in a mutex that another thread leaves. -/
def Store.Foreign (t : Tid) (leaves : Tid → Option LockRef) (s : Store) : Prop :=
  ∀ u l, leaves u = some l → ∃ k, s.lock l = some k ∧ k.isLocked = true ∧ k.holder ≠ some t ∧
    (s.ids.own.get t ≠ .nobody → k.owner ≠ s.ids.own.get t)

namespace Store.Twin

variable {leaves : Tid → Option LockRef} {pends : Tid → Option (CondRef × LockRef)}
  {chosen : CondRef → Option Tid} {s s' s₁ s₁' : Store} {t : Tid} {l : LockRef}

theorem ids (h : s.Twin leaves pends chosen s') : s'.ids = s.ids := by
  obtain ⟨_, _, _, rfl⟩ := h.rest
  rfl

theorem clock (h : s.Twin leaves pends chosen s') : s'.clock = s.clock := by
  obtain ⟨_, _, _, rfl⟩ := h.rest
  rfl

theorem report (h : s.Twin leaves pends chosen s') (record record' : Record) :
    (s.report record).Twin leaves pends chosen (s'.report record') := by
  obtain ⟨_, _, _, rfl⟩ := h.rest
  exact ⟨⟨_, _, _, rfl⟩, h.locks, h.left, h.conds⟩

/-- A thread gets the same identity in both. -/
theorem currentId (h : s.Twin leaves pends chosen s') (t : Tid) :
    (s.currentId t).1.Twin leaves pends chosen (s'.currentId t).1 ∧
      (s'.currentId t).2 = (s.currentId t).2 := by
  obtain ⟨_, _, _, rfl⟩ := h.rest
  exact ⟨⟨⟨_, _, _, rfl⟩, h.locks, h.left, h.conds⟩, rfl⟩

theorem lock_setMutex (s : Store) (l k : LockRef) (m : Mutex) :
    (s.setMutex l m).lock k = if k = l then m.state else s.lock k := by
  simp only [lock, setMutex, Table.get_set]
  split <;> rfl

/-- Both stores are given the same mutex. -/
theorem setMutex (h : s.Twin leaves pends chosen s') (hl : ∀ u, leaves u ≠ some l) (m : Mutex) :
    (s.setMutex l m).Twin leaves pends chosen (s'.setMutex l m) := by
  refine ⟨?_, ?_, ?_, h.conds⟩
  · obtain ⟨_, _, _, rfl⟩ := h.rest
    exact ⟨_, _, _, rfl⟩
  · intro k hk
    rw [lock_setMutex, lock_setMutex, h.locks k hk]
  · intro u k hk
    rw [lock_setMutex, if_neg]
    · exact h.left u k hk
    · rintro rfl
      exact hl u hk

theorem setLock (h : s.Twin leaves pends chosen s') (hl : ∀ u, leaves u ≠ some l) (k : LockState) :
    (s.setLock l k).Twin leaves pends chosen (s'.setLock l k) :=
  h.setMutex hl ⟨some k⟩

/-- A mutex is the same in both, unless a thread leaves it. -/
theorem lock_cases (h : s.Twin leaves pends chosen s') (l : LockRef) :
    (s'.lock l = s.lock l ∧ ∀ u, leaves u ≠ some l) ∨
      s'.lock l = some .free ∧ ∃ u, leaves u = some l := by
  by_cases hl : ∃ u, leaves u = some l
  · obtain ⟨u, hu⟩ := hl
    exact .inr ⟨h.left u l hu, u, hu⟩
  · have hnone (u : Tid) : leaves u ≠ some l := fun hu => hl ⟨u, hu⟩
    exact .inl ⟨h.locks l hnone, hnone⟩

end Store.Twin

/-! ## Steps side by side

That two steps go the same way is a relation of their results, and the ways in which phases are
built from others keep it: a phase within a phase, a panic that is held back, a reply that is passed
on. So a lemma about locking a mutex serves every call that locks one. -/

/-- Two steps that go the same way, and leave stores and phases that belong together. Nothing is
required of a step that cannot be taken. -/
def Progress.Twins {φ ψ ρ : Type} (T : Store → Store → Prop) (M : φ → ψ → Prop) :
    Progress φ ρ → Progress ψ ρ → Prop
  | next s a, next s' a' => T s s' ∧ M a a'
  | done s r, done s' r' => T s s' ∧ r' = r
  | fault s why, fault s' why' => T s s' ∧ why' = why
  | abort s, abort s' => T s s'
  | blocked, _ => True
  | _, _ => False

namespace Progress

variable {φ φ' ψ ψ' ρ τ : Type} {T : Store → Store → Prop} {M : φ → φ' → Prop}
  {N : ψ → ψ' → Prop} {p : Progress φ ρ} {p' : Progress φ' ρ}

/-- Steps within larger phases go the same way if the steps do. -/
theorem Twins.within (h : p.Twins T M p') {wrap : φ → ψ} {wrap' : φ' → ψ'}
    {finish : Store → ρ → Progress ψ τ} {finish' : Store → ρ → Progress ψ' τ}
    (hwrap : ∀ a a', M a a' → N (wrap a) (wrap' a'))
    (hfinish : ∀ s s' r, T s s' → (finish s r).Twins T N (finish' s' r)) :
    (p.within wrap finish).Twins T N (p'.within wrap' finish') := by
  cases p <;> cases p' <;> simp only [Twins, Progress.within] at h ⊢
  case next.next => exact ⟨h.1, hwrap _ _ h.2⟩
  case done.done =>
    obtain ⟨hT, rfl⟩ := h
    exact hfinish _ _ _ hT
  case fault.fault => exact h
  case abort.abort => exact h

/-- What can be: the first step cannot be taken, or both go the same way. -/
theorem Twins.inv (h : p.Twins T M p') :
    p = .blocked ∨
      (∃ s a s' a', p = .next s a ∧ p' = .next s' a' ∧ T s s' ∧ M a a') ∨
      (∃ s s' r, p = .done s r ∧ p' = .done s' r ∧ T s s') ∨
      (∃ s s' why, p = .fault s why ∧ p' = .fault s' why ∧ T s s') ∨
      ∃ s s', p = .abort s ∧ p' = .abort s' ∧ T s s' := by
  cases p <;> cases p' <;> simp only [Twins] at h <;> first
    | exact .inl rfl
    | exact .inr (.inl ⟨_, _, _, _, rfl, rfl, h⟩)
    | exact .inr (.inr (.inl ⟨_, _, _, rfl, congrArg _ h.2, h.1⟩))
    | exact .inr (.inr (.inr (.inl ⟨_, _, _, rfl, congrArg _ h.2, h.1⟩)))
    | exact .inr (.inr (.inr (.inr ⟨_, _, rfl, rfl, h⟩)))

/-- A step that holds back an earlier panic goes the same way. -/
theorem Twins.whileUnwinding (h : p.Twins T M p') (pending : Option Panic) :
    (p.whileUnwinding pending).Twins T M (p'.whileUnwinding pending) := by
  unfold Progress.whileUnwinding
  split
  · cases p <;> cases p' <;> simp only [Twins, orAbort] at h ⊢ <;> first | exact h | exact h.1
  · exact h

theorem Twins.passOn {s s' : Store} (h : T s s') (reply : ρ) (pending : Option Panic) :
    (Progress.passOn s reply pending : Progress φ ρ).Twins T M
      (Progress.passOn s' reply pending : Progress φ' ρ) := by
  cases pending <;> exact ⟨h, rfl⟩

end Progress

section

variable {leaves : Tid → Option LockRef} {pends : Tid → Option (CondRef × LockRef)}
  {chosen : CondRef → Option Tid} {s s' : Store} {t : Tid} {l : LockRef} {base : Grip}

theorem Store.Twin.violate {φ ψ ρ : Type} {M : φ → ψ → Prop}
    (h : s.Twin leaves pends chosen s') (v : Violation) :
    (s.violate v : Progress φ ρ).Twins (Store.Twin leaves pends chosen) M (s'.violate v) :=
  ⟨h.report _ _, rfl⟩

/-- A thread finds the same mutex, or one that another thread leaves, and which is not its own in
either store. -/
theorem Store.Twin.withLock {φ ψ ρ : Type} {M : φ → ψ → Prop} {step : LockState → Progress φ ρ}
    {step' : LockState → Progress ψ ρ} (h : s.Twin leaves pends chosen s')
    (hforeign : s.Foreign t leaves)
    (hsame : ∀ k, s.lock l = some k → (∀ u, leaves u ≠ some l) →
      (step k).Twins (Store.Twin leaves pends chosen) M (step' k))
    (hleft : ∀ k, s.lock l = some k → k.isLocked = true → k.holder ≠ some t →
      (s.ids.own.get t ≠ .nobody → k.owner ≠ s.ids.own.get t) →
      (step k).Twins (Store.Twin leaves pends chosen) M (step' .free)) :
    (s.withLock l step).Twins (Store.Twin leaves pends chosen) M (s'.withLock l step') := by
  unfold Store.withLock
  rcases h.lock_cases l with ⟨hlock, hnone⟩ | ⟨hlock, u, hu⟩
  · rw [hlock]
    split
    · exact hsame _ ‹_› hnone
    · trivial
  · obtain ⟨k, hk, hlocked, hholder, howner⟩ := hforeign u l hu
    simp only [hlock, hk]
    exact hleft k hk hlocked hholder howner

/-- A mutex is initialized in both stores or in neither. -/
theorem Store.Twin.isNone_lock (h : s.Twin leaves pends chosen s') (hforeign : s.Foreign t leaves)
    (l : LockRef) : (s'.lock l).isNone = (s.lock l).isNone := by
  rcases h.lock_cases l with ⟨hlock, -⟩ | ⟨hlock, u, hu⟩
  · rw [hlock]
  · obtain ⟨k, hk, -⟩ := hforeign u l hu
    rw [hlock, hk]
    rfl

/-- Locking a mutex goes the same way in both stores. -/
theorem LockPhase.step_twins (p : LockPhase) (h : s.Twin leaves pends chosen s')
    (hforeign : s.Foreign t leaves) (hme : s.Owns t p.me?)
    (hfits : (p.grip base).Fits s.ids.own.get (s.lock l) t) :
    (p.step t l s).Twins (Store.Twin leaves pends chosen) (fun a a' => a' = a) (p.step t l s') := by
  cases p with
  | entry =>
    simp only [step, h.isNone_lock hforeign l]
    split
    · exact h.violate _
    · obtain ⟨htwin, hid⟩ := h.currentId t
      exact ⟨htwin, by rw [hid]⟩
  | check me =>
    obtain ⟨rfl, hne⟩ := hme me rfl
    refine h.withLock hforeign ?_ ?_
    · intro k _ _
      split
      · exact h.violate _
      · exact ⟨h, rfl⟩
    · intro k _ _ _ howner
      rw [if_neg (howner hne), if_neg (show ¬ LockState.free.owner = _ from Ne.symm hne)]
      exact ⟨h, rfl⟩
  | take me =>
    refine h.withLock hforeign ?_ ?_
    · intro k _ hnone
      split
      · trivial
      · exact ⟨h.setLock hnone _, rfl⟩
    · intro k _ hlocked _ _
      rw [if_pos hlocked]
      trivial
  | claim me =>
    refine h.withLock hforeign ?_ ?_
    · intro k _ hnone
      exact ⟨h.setLock hnone _, rfl⟩
    -- nobody who claims a mutex is about to leave it
    · intro k hk _ hholder _
      have hlock : s.lock l = some ⟨some t, .nobody⟩ := hfits
      cases hk.symm.trans hlock
      exact absurd rfl hholder

/-- So does unlocking one, -/
theorem UnlockPhase.step_twins (p : UnlockPhase) (h : s.Twin leaves pends chosen s')
    (hforeign : s.Foreign t leaves) (hme : s.Owns t p.me?)
    (hfits : (p.grip base).Fits s.ids.own.get (s.lock l) t) :
    (p.step t l s).Twins (Store.Twin leaves pends chosen) (fun a a' => a' = a) (p.step t l s') := by
  cases p with
  | entry =>
    simp only [step, h.isNone_lock hforeign l]
    split
    · exact h.violate _
    · obtain ⟨htwin, hid⟩ := h.currentId t
      exact ⟨htwin, by rw [hid]⟩
  | check me =>
    obtain ⟨rfl, hne⟩ := hme me rfl
    refine h.withLock hforeign ?_ ?_
    · intro k _ _
      split
      · exact ⟨h, rfl⟩
      · exact h.violate _
    · intro k _ _ _ howner
      rw [if_neg (howner hne), if_neg (show ¬ LockState.free.owner = _ from Ne.symm hne)]
      exact h.violate _
  | disclaim =>
    refine h.withLock hforeign ?_ ?_
    · intro k _ hnone
      exact ⟨h.setLock hnone _, rfl⟩
    · intro k hk _ hholder _
      have hlock : s.lock l = _ := hfits.1
      -- a thread that releases a mutex is its holder, so no other thread leaves it
      cases hk.symm.trans hlock
      exact absurd rfl hholder
  | release =>
    refine h.withLock hforeign ?_ ?_
    · intro k _ hnone
      exact ⟨h.setLock hnone _, rfl⟩
    · intro k hk _ hholder _
      have hlock : s.lock l = some ⟨some t, .nobody⟩ := hfits
      cases hk.symm.trans hlock
      exact absurd rfl hholder

/-- so does a guard scope, -/
theorem ScopePhase.step_twins (p : ScopePhase) (h : s.Twin leaves pends chosen s')
    (hforeign : s.Foreign t leaves) (hme : s.Owns t p.me?)
    (hfits : p.grip.Fits s.ids.own.get (s.lock l) t) :
    (p.step t l s).Twins (Store.Twin leaves pends chosen) (fun a a' => a' = a) (p.step t l s') := by
  cases p with
  | locking p =>
    exact (p.step_twins h hforeign hme hfits).within (fun _ _ heq => heq ▸ rfl)
      fun _ _ _ hs => ⟨hs, rfl⟩
  | body => trivial
  | unlocking p pending =>
    exact ((p.step_twins h hforeign hme hfits).whileUnwinding pending).within
      (fun _ _ heq => heq ▸ rfl) fun _ _ _ hs => .passOn hs () pending

/-- and so does an unlocked section. -/
theorem UnlockedPhase.step_twins (p : UnlockedPhase) (h : s.Twin leaves pends chosen s')
    (hforeign : s.Foreign t leaves) (hme : s.Owns t p.me?)
    (hfits : p.grip.Fits s.ids.own.get (s.lock l) t) :
    (p.step t l s).Twins (Store.Twin leaves pends chosen) (fun a a' => a' = a) (p.step t l s') := by
  cases p with
  | unlocking p =>
    exact (p.step_twins h hforeign hme hfits).within (fun _ _ heq => heq ▸ rfl)
      fun _ _ _ hs => ⟨hs, rfl⟩
  | body => trivial
  | relocking p pending =>
    exact ((p.step_twins h hforeign hme hfits).whileUnwinding pending).within
      (fun _ _ heq => heq ▸ rfl) fun _ _ _ hs => .passOn hs () pending

theorem Condition.Twin.isInitialized {waits : Tid → LockRef → Prop} {cond cond' : Condition}
    (h : cond.Twin waits cond') : cond'.isInitialized = cond.isInitialized := by
  cases h <;> rfl

/-- Where a condition variable without waiters is put, its twin is put. -/
theorem Store.Twin.setCond (h : s.Twin leaves pends chosen s') {c : CondRef}
    {cond cond' : Condition}
    (hcond : cond.Twin (fun t l => pends t = some (c, l) ∧ chosen c ≠ some t) cond') :
    (s.setCond c cond).Twin leaves pends chosen (s'.setCond c cond') := by
  refine ⟨?_, h.locks, h.left, ?_⟩
  · obtain ⟨_, _, _, rfl⟩ := h.rest
    exact ⟨_, _, _, rfl⟩
  · intro d
    simp only [Store.setCond, Table.get_set]
    split
    · subst d
      exact hcond
    · exact h.conds d

/-- Two new condition variables belong together where nobody waits. -/
theorem Condition.twin_new {waits : Tid → LockRef → Prop} (hnone : ∀ t l, ¬ waits t l) :
    (new .fallback).Twin waits (new .native) := by
  refine .portable .nil ?_
  intro t l
  simp [hnone t l, NativeQueue.empty]

/-! ### Destruction

A mutex that is destroyed is not being left, and a portable condition variable that is destroyed is
at rest. Under these conditions destructors find the same in both stores. -/

/-- A destruction that goes the same way in both stores. -/
def Store.TwinDrop (leaves : Tid → Option LockRef) (pends : Tid → Option (CondRef × LockRef))
    (chosen : CondRef → Option Tid) (dropped dropped' : Store × Option Panic) : Prop :=
  dropped.1.Twin leaves pends chosen dropped'.1 ∧ dropped'.2 = dropped.2

/-- What a destructor has found is reported in both stores. -/
theorem Store.Twin.reportDrop (h : s.Twin leaves pends chosen s') (unwinding : Bool)
    (v : Option Violation) :
    Store.TwinDrop leaves pends chosen (s.reportDrop unwinding v) (s'.reportDrop unwinding v) := by
  cases v with
  | none => exact ⟨h, rfl⟩
  | some v => exact ⟨h.report _ _, rfl⟩

/-- A mutex is destroyed in both stores, -/
theorem Store.Twin.destroyMutex (h : s.Twin leaves pends chosen s')
    (hl : ∀ u, leaves u ≠ some l) (unwinding : Bool) :
    Store.TwinDrop leaves pends chosen (s.destroyMutex l unwinding)
      (s'.destroyMutex l unwinding) := by
  have hsame : s'.locks.get l = s.locks.get l := by
    have hlock := h.locks l hl
    simp only [Store.lock] at hlock
    cases hget : s.locks.get l
    cases hget' : s'.locks.get l
    simpa [hget, hget'] using hlock
  rw [Store.destroyMutex, Store.destroyMutex, hsame]
  exact (h.setMutex hl .raw).reportDrop unwinding _

/-- and so is a condition variable at rest, -/
theorem Store.Twin.destroyCond {c : CondRef} (h : s.Twin leaves pends chosen s')
    (hquiet : ∀ f, s.conds.get c = .fallback f → f.isQuiescent = true) (unwinding : Bool) :
    Store.TwinDrop leaves pends chosen (s.destroyCond c unwinding)
      (s'.destroyCond c unwinding) := by
  have hfine : (s.conds.get c).dropViolation = none ∧ (s'.conds.get c).dropViolation = none := by
    have hcond := h.conds c
    generalize s.conds.get c = cond at hcond hquiet
    generalize s'.conds.get c = cond' at hcond
    cases hcond with
    | raw => exact ⟨rfl, rfl⟩
    | portable => exact ⟨if_pos (hquiet _ rfl), rfl⟩
  rw [Store.destroyCond, Store.destroyCond, hfine.1, hfine.2]
  exact (h.setCond .raw).reportDrop unwinding none

/-- and so is a mutex that monitors share, with the last of them. -/
theorem Store.Twin.releaseShare (h : s.Twin leaves pends chosen s')
    (hl : s.lockUsers.get l ≤ 1 → ∀ u, leaves u ≠ some l) (unwinding : Bool) :
    Store.TwinDrop leaves pends chosen (s.releaseShare l unwinding)
      (s'.releaseShare l unwinding) := by
  obtain ⟨_, _, _, rfl⟩ := h.rest
  simp only [Store.releaseShare]
  split
  · refine Store.Twin.destroyMutex ?_ (hl ‹_›) unwinding
    exact ⟨⟨_, _, _, rfl⟩, h.locks, h.left, h.conds⟩
  · exact ⟨⟨⟨_, _, _, rfl⟩, h.locks, h.left, h.conds⟩, rfl⟩

/-- Giving back a share of a mutex leaves condition variables alone. -/
theorem Store.releaseShare_conds (s : Store) (l : LockRef) (unwinding : Bool) :
    (s.releaseShare l unwinding).1.conds = s.conds := by
  simp only [releaseShare]
  split
  · rw [destroyMutex_fst]
    rfl
  · rfl

/-- An object is destroyed in both stores. -/
theorem Store.Twin.destroy {o : Object} (h : s.Twin leaves pends chosen s')
    (hplain : o.isPlain = true) (hleft : ∀ u l, .mutex l ∈ o.parts s → leaves u ≠ some l)
    (hquiet : ∀ c f, .condition c ∈ o.parts s → s.conds.get c = .fallback f →
      f.isQuiescent = true) (unwinding : Bool) :
    Store.TwinDrop leaves pends chosen (s.destroy o unwinding) (s'.destroy o unwinding) := by
  cases o with
  | mutex l => exact h.destroyMutex (fun u => hleft u l (by simp [Object.parts])) unwinding
  | condition c => exact h.destroyCond (fun f => hquiet c f (by simp [Object.parts])) unwinding
  | monitor mo =>
    have hmonitors : s'.monitors = s.monitors := by
      obtain ⟨_, _, _, rfl⟩ := h.rest
      rfl
    have hshare : Store.TwinDrop leaves pends chosen _ _ :=
      h.releaseShare (l := (s.monitors.get mo).lock)
        (fun husers u => hleft u _ (by simp [Object.parts, husers])) unwinding
    -- the share of the mutex goes first, and that leaves the condition variable alone
    have hconds := s.releaseShare_conds (s.monitors.get mo).lock unwinding
    simp only [Store.destroy, Store.destroyMonitor, hmonitors]
    generalize s.releaseShare (s.monitors.get mo).lock unwinding = first at hshare hconds
    generalize s'.releaseShare (s.monitors.get mo).lock unwinding = first' at hshare
    obtain ⟨s₁, first⟩ := first
    obtain ⟨s₁', first'⟩ := first'
    obtain ⟨htwin, rfl⟩ := hshare
    have hdrop := htwin.destroyCond (c := (s.monitors.get mo).cond)
      (fun f hf => hquiet _ f (by simp [Object.parts]) (hconds ▸ hf))
      (unwinding || first'.isSome)
    exact ⟨hdrop.1, by rw [hdrop.2]⟩
  | _ => cases hplain

end

end Interlock
