import Interlock.Proofs.Agreement.Twin
import Interlock.Proofs.Condition.Gate
import Interlock.Proofs.Depth

/-!
# Steps that go the same way

A step of a call in a store with portable condition variables, and the same step in the twin of the
store. All but the inner steps of a wait and of a wakeup go the same way in both.

  * `Machine.leaves`, `Machine.pends`: who has still to release a mutex, and who sleeps where;
  * `Machine.foreign`: the mutexes that are being left, in which the stores differ, concern nobody
    else;
  * `Call.isJoint`, `Call.step_twins`: the steps that go the same way.

The stores differ at a mutex that a sleeper is leaving, and both treat a thread that looks at it as
one that does not have it: in the first store another thread is the holder and the owner, in the
second one the mutex is free. The one step that could tell the two apart takes the platform lock. It
is blocked in the first store, and of a step that is blocked there nothing is required.
-/

namespace Interlock

/-! ## Where sleepers are

A sleeper that has still to release its mutex holds it, and holds it alone. So no other thread can
find out that its twin has released the mutex already: whatever another thread does with that mutex,
it does in both stores as somebody who does not have it. -/

section

variable {c : CondRef} {l : LockRef} {call : Call}

/-- A call pends where its place says so. -/
theorem Call.pends_iff : call.pends = some (c, l) ↔
    ∃ timeout p, call.place c = .waiting l timeout p ∧ p.isPending = true := by
  -- the same for a wait and for a loop around waits
  have hwait (d : CondRef) (k : LockRef) (rest : Option Duration) (p : WaitPhase) :
      (if p.isPending then some (d, k) else none) = some (c, l) ↔
        ∃ timeout q, (if d = c then p.place k rest else .outside) = .waiting l timeout q ∧
          q.isPending = true := by
    cases p with
    | fallback p =>
      constructor
      · intro h
        split at h
        · cases h
          exact ⟨rest, p, if_pos rfl, ‹_›⟩
        · cases h
      · rintro ⟨timeout, q, hplace, hq⟩
        split at hplace
        · cases hplace
          subst d
          exact if_pos hq
        · cases hplace
    | _ =>
      constructor
      · intro h
        cases h
      · rintro ⟨timeout, q, hplace, hq⟩
        split at hplace <;> cases hplace
  cases call with
  | wait d k rest p => exact hwait d k rest p
  | waitWhile d k whole p =>
    cases p with
    | waiting start rest p => exact hwait d k rest p
    | _ => simp [pends, place, WaitWhilePhase.place]
  | wakeup d e p =>
    constructor
    · intro h
      cases h
    · rintro ⟨timeout, q, hplace, -⟩
      simp only [place] at hplace
      split at hplace <;> cases p <;> cases hplace
  | _ => simp [pends, place]

/-- A thread that leaves a mutex pends with it. -/
theorem Call.pends_of_leaves (h : call.leaves = some l) :
    ∃ c, call.pends = some (c, l) ∧
      ∃ timeout p, call.place c = .waiting l timeout p ∧ p.isLeaving = true := by
  have hwait {d : CondRef} {k : LockRef} {rest : Option Duration} {p : WaitPhase}
      (h : (if p.isLeaving then some k else none) = some l) :
      (if p.isPending then some (d, k) else none) = some (d, l) ∧
        ∃ timeout q, (if d = d then p.place k rest else .outside) = .waiting l timeout q ∧
          q.isLeaving = true := by
    split at h
    · cases h
      cases p with
      | fallback p =>
        refine ⟨if_pos ?_, rest, p, if_pos rfl, ‹_›⟩
        cases p <;> first | rfl | contradiction
      | _ => contradiction
    · cases h
  cases call with
  | wait d k rest p => exact ⟨d, hwait h⟩
  | waitWhile d k whole p =>
    cases p with
    | waiting start rest p => exact ⟨d, hwait h⟩
    | _ => cases h
  | _ => cases h

end

namespace Machine

variable {m : Machine} {t u : Tid} {c : CondRef} {l : LockRef}

/-- The mutex that thread `t` has still to release although it is registered. -/
def leaves (m : Machine) (t : Tid) : Option LockRef := m.see Call.leaves none t

/-- Where thread `t` sleeps and has neither seen an event nor run out of time, and with which
mutex. -/
def pends (m : Machine) (t : Tid) : Option (CondRef × LockRef) := m.see Call.pends none t

/-- A thread pends where its place says so, -/
theorem pends_iff : m.pends t = some (c, l) ↔
    ∃ timeout p, m.place c t = .waiting l timeout p ∧ p.isPending = true := by
  cases hcall : m.call? t with
  | none =>
    have hnone {β : Type} {f : Call → β} {d : β} : m.see f d t = d := by rw [see, hcall]; rfl
    rw [pends, place, hnone, hnone]
    simp
  | some call =>
    rw [pends, place, see_of_call? hcall, see_of_call? hcall]
    exact Call.pends_iff

/-- and a thread that leaves a mutex pends with it. -/
theorem pends_of_leaves (h : m.leaves t = some l) :
    ∃ c, m.pends t = some (c, l) ∧
      ∃ timeout p, m.place c t = .waiting l timeout p ∧ p.isLeaving = true := by
  cases hcall : m.call? t with
  | none =>
    rw [leaves, see, hcall] at h
    cases h
  | some call =>
    rw [leaves, see_of_call? hcall] at h
    obtain ⟨c, hpends, timeout, p, hplace, hleaving⟩ := Call.pends_of_leaves h
    refine ⟨c, ?_, timeout, p, ?_, hleaving⟩
    · rw [pends, see_of_call? hcall, hpends]
    · rw [place, see_of_call? hcall, hplace]

theorem registered_of_pends (h : m.pends t = some (c, l)) : (m.place c t).isRegistered = true := by
  obtain ⟨timeout, p, hplace, hpending⟩ := pends_iff.1 h
  rw [hplace]
  cases p <;> first | rfl | cases hpending

/-- Whoever leaves a mutex holds it. -/
theorem holder_of_leaves (hids : m.Identified) (hholds : m.Holds l) (h : m.leaves t = some l) :
    ∃ k, m.store.lock l = some k ∧ k.holder = some t ∧
      (k.owner = .nobody ∨
        k.owner = m.store.ids.own.get t ∧ m.store.ids.own.get t ≠ .nobody) := by
  obtain ⟨c, -, timeout, p, hplace, hleaving⟩ := pends_of_leaves h
  obtain ⟨hgrip, -⟩ := grip_of_waiting hplace hids
  have hfits := hholds.grips t
  rw [hgrip] at hfits
  have hfull (hfits : Grip.full.Fits m.store.ids.own.get (m.store.lock l) t) :
      ∃ k, m.store.lock l = some k ∧ k.holder = some t ∧
        (k.owner = .nobody ∨
          k.owner = m.store.ids.own.get t ∧ m.store.ids.own.get t ≠ .nobody) :=
    ⟨_, hfits.1, rfl, .inr ⟨rfl, hfits.2⟩⟩
  cases p with
  | handBack => exact hfull hfits
  | unlocking p =>
    cases p with
    | release => exact ⟨_, hfits, rfl, .inl rfl⟩
    | _ => exact hfull hfits
  | _ => cases hleaving

/-- What a thread does with mutexes does not concern those that other threads leave. -/
theorem foreign (hids : m.Identified) (hholds : ∀ l, m.Holds l) (ht : m.leaves t = none) :
    m.store.Foreign t m.leaves := by
  intro u l hu
  have hut : u ≠ t := by
    rintro rfl
    cases ht.symm.trans hu
  obtain ⟨k, hk, hholder, howner⟩ := holder_of_leaves hids (hholds l) hu
  refine ⟨k, hk, ?_, ?_, ?_⟩
  · rw [LockState.isLocked, hholder]
    rfl
  · rw [hholder]
    exact fun heq => hut (Option.some.inj heq)
  · intro hne heq
    rcases howner with hnobody | ⟨hown, hne'⟩
    · exact hne (heq.symm.trans hnobody)
    · exact hut (hids.distinct u t (hown.symm.trans heq) hne')

end Machine

/-! ## Joint steps

Apart from the inner steps of waits and wakeups, a call and its twin are in the same phase and take
the same step. The lemmas follow the phases of a call from the inside to the outside. -/

/-- Whether the twin of a call takes the same step: all but the inner steps of a wait and of a
wakeup. -/
def Call.isJoint : Call → Bool
  | wakeup _ _ p => p == .entry
  | wait _ _ _ (.fallback _) | waitWhile _ _ _ (.waiting _ _ (.fallback _)) => false
  | _ => true

/-- A call after a joint step, and its twin. -/
structure Call.Paired (call call' : Call) : Prop where
  mirror : ∀ me deadline, call' = call.mirror me deadline
  leaves : call.leaves = none
  pends : call.pends = none
  isOn : call.isOn .fallback = true

structure WaitPhase.Paired (p p' : WaitPhase) : Prop where
  mirror : ∀ me deadline, p' = p.mirror me deadline
  leaving : p.isLeaving = false
  pending : p.isPending = false
  isOn : p.isOn .fallback = true

structure WaitWhilePhase.Paired (p p' : WaitWhilePhase) : Prop where
  mirror : ∀ me deadline, p' = p.mirror me deadline
  calm : ∀ start rest q, p = .waiting start rest q → q.isLeaving = false ∧ q.isPending = false
  isOn : p.isOn .fallback = true

section

variable {leaves : Tid → Option LockRef} {pends : Tid → Option (CondRef × LockRef)}
  {chosen : CondRef → Option Tid} {s s' : Store} {t : Tid} {c : CondRef} {l : LockRef}
  {timeout : Option Duration} {me : ThreadId} {deadline : Option Instant} {choice : Choice}

/-- A wait that has not come to its backend yet takes the same steps in both stores, -/
theorem WaitPhase.step_twins {p : WaitPhase} (h : s.Twin leaves pends chosen s')
    (hforeign : s.Foreign t leaves) (hme : s.Owns t p.me?) (hon : p.isOn .fallback = true)
    (hjoint : ∀ q, p ≠ fallback q) :
    (p.step t c l timeout s).Twins (Store.Twin leaves pends chosen) Paired
      ((p.mirror me deadline).step t c l timeout s') := by
  cases p with
  | entry =>
    simp only [mirror, step, (h.conds c).isInitialized]
    split
    · exact ⟨h, fun _ _ => rfl, rfl, rfl, rfl⟩
    · exact h.violate _
  | identify =>
    simp only [mirror, step, h.isNone_lock hforeign l]
    split
    · exact h.violate _
    · obtain ⟨htwin, hid⟩ := h.currentId t
      exact ⟨htwin, fun _ _ => by rw [hid]; rfl, rfl, rfl, rfl⟩
  | check id =>
    obtain ⟨rfl, hne⟩ := hme id rfl
    refine h.withLock hforeign ?_ ?_
    · intro k _ _
      split
      · exact h.violate _
      · have hcond := h.conds c
        generalize s.conds.get c = cond at hcond
        generalize s'.conds.get c = cond' at hcond
        cases hcond with
        | raw => trivial
        | portable => exact ⟨h, fun _ _ => rfl, rfl, rfl, rfl⟩
    · -- the mutex is free in the second store, and another thread's in the first one
      intro k _ _ _ howner
      rw [if_pos (howner hne), if_pos (show LockState.free.owner ≠ _ from Ne.symm hne)]
      exact h.violate _
  | native p => cases hon
  | fallback p => exact absurd rfl (hjoint p)

/-- and so does a loop around waits, outside of these. -/
theorem WaitWhilePhase.step_twins {p : WaitWhilePhase} (h : s.Twin leaves pends chosen s')
    (hforeign : s.Foreign t leaves) (hme : s.Owns t p.me?) (hon : p.isOn .fallback = true)
    (hjoint : ∀ start rest q, p ≠ waiting start rest (.fallback q)) :
    (p.step t c l timeout s).Twins (Store.Twin leaves pends chosen) Paired
      ((p.mirror me deadline).step t c l timeout s') := by
  -- a phase outside the wait is its own mirror image
  have hcalm {p : WaitWhilePhase} (hmirror : (p.mirror · ·) = fun _ _ => p)
      (hp : ∀ start rest q, p ≠ waiting start rest q) (hon : p.isOn .fallback = true) :
      Paired p p :=
    ⟨fun me deadline => (congrFun (congrFun hmirror me) deadline).symm,
      fun start rest q heq => absurd heq (hp start rest q), hon⟩
  cases p with
  | waiting start rest p =>
    have hp (q : FallbackWaitPhase) (hq : p = .fallback q) : False :=
      hjoint start rest q (hq ▸ rfl)
    refine (WaitPhase.step_twins h hforeign hme hon hp).within ?_ ?_
    · rintro p p' hp
      refine ⟨fun me deadline => by rw [hp.mirror me deadline]; rfl, ?_, hp.isOn⟩
      rintro _ _ _ ⟨⟩
      exact ⟨hp.leaving, hp.pending⟩
    · intro _ _ _ hs
      exact ⟨hs, hcalm rfl (by simp) rfl⟩
  | begin =>
    simp only [mirror, step, h.clock]
    exact ⟨h, hcalm rfl (by simp) rfl⟩
  | test start => trivial
  | measure start =>
    have hentry (rest : Option Duration) :
        Paired (waiting start rest .entry) (waiting start rest .entry) := by
      refine ⟨fun _ _ => rfl, ?_, rfl⟩
      rintro _ _ _ ⟨⟩
      exact ⟨rfl, rfl⟩
    simp only [mirror, step, h.clock]
    split
    · exact ⟨h, hentry none⟩
    · split
      · exact ⟨h, hentry _⟩
      · exact ⟨h, rfl⟩
  | met => exact ⟨h, rfl⟩
  | broken why => exact ⟨h, rfl⟩

/-- A condition variable is initialized in both stores, and only where nobody waits. -/
theorem initCondStep_twins (h : s.Twin leaves pends chosen s')
    (hraw : s.conds.get c = .raw → ∀ u l, pends u ≠ some (c, l)) :
    (initCondStep c .fallback s : Progress Call Unit).Twins (Store.Twin leaves pends chosen)
      Call.Paired (initCondStep c .native s') := by
  simp only [initCondStep, (h.conds c).isInitialized]
  split
  · exact h.violate _
  · have hnobody : s.conds.get c = .raw := by
      cases hcond : s.conds.get c <;>
        simp_all [Condition.isInitialized, Condition.backend?]
    exact ⟨h.setCond (Condition.twin_new fun u k hwaits => hraw hnobody u k hwaits.1), rfl⟩

/-- A wakeup finds the same kind of condition variable. -/
theorem WakeupPhase.entry_twins {event : WakeEvent} (h : s.Twin leaves pends chosen s') :
    (step c event choice s entry).Twins (Store.Twin leaves pends chosen)
      (fun p p' => p' = p.mirror ∧ p.isOn .fallback = true) (step c event choice s' entry) := by
  have hcond := h.conds c
  simp only [step]
  generalize s.conds.get c = cond at hcond
  generalize s'.conds.get c = cond' at hcond
  cases hcond with
  | raw => exact h.violate _
  | portable => exact ⟨h, rfl, rfl⟩

/-- A mutex is initialized in both stores, unless it is in both already. -/
theorem initMutexStep_twins (h : s.Twin leaves pends chosen s') (hforeign : s.Foreign t leaves)
    (l : LockRef) : (initMutexStep l s : Progress Call Unit).Twins (Store.Twin leaves pends chosen)
      Call.Paired (initMutexStep l s') := by
  simp only [initMutexStep]
  rcases h.lock_cases l with ⟨hlock, hnone⟩ | ⟨-, u, hu⟩
  · rw [hlock]
    split
    · exact h.violate _
    · exact ⟨h.setLock hnone _, rfl⟩
  · -- a mutex that somebody is about to release has been initialized in both stores
    obtain ⟨k, hk, -⟩ := hforeign u l hu
    simp only [← Option.not_isNone, h.isNone_lock hforeign l]
    simp only [hk, Option.isNone_some, Bool.not_false, if_true]
    exact h.violate _

/-- An object is destroyed in both stores. -/
theorem destroyStep_twins {o : Object} (h : s.Twin leaves pends chosen s')
    (hplain : o.isPlain = true) (hleft : ∀ u l, .mutex l ∈ o.parts s → leaves u ≠ some l)
    (hquiet : ∀ c f, .condition c ∈ o.parts s → s.conds.get c = .fallback f →
      f.isQuiescent = true) (unwinding : Bool) :
    (destroyStep o unwinding s : Progress Call Unit).Twins (Store.Twin leaves pends chosen)
      Call.Paired (destroyStep o unwinding s') := by
  have hdrop := h.destroy hplain hleft hquiet unwinding
  simp only [destroyStep]
  generalize s.destroy o unwinding = dropped at hdrop
  generalize s'.destroy o unwinding = dropped' at hdrop
  obtain ⟨s₁, why⟩ := dropped
  obtain ⟨s₁', why'⟩ := dropped'
  obtain ⟨htwin, hwhy⟩ := hdrop
  obtain rfl : why' = why := hwhy
  cases why' <;> exact ⟨htwin, rfl⟩

/-- A phase that the mirror leaves alone is paired with itself. -/
theorem Call.Paired.of_same {φ : Type} {wrap : φ → Call} {p p' : φ} (hp : p' = p)
    (hmirror : ∀ me deadline, (wrap p).mirror me deadline = wrap p)
    (hleaves : (wrap p).leaves = none) (hpends : (wrap p).pends = none)
    (hon : (wrap p).isOn .fallback = true) : Paired (wrap p) (wrap p') :=
  ⟨fun me deadline => by rw [hp, hmirror], hleaves, hpends, hon⟩

theorem WaitPhase.Paired.call {p p' : WaitPhase} (h : p.Paired p') :
    Call.Paired (.wait c l timeout p) (.wait c l timeout p') :=
  ⟨fun me deadline => by rw [h.mirror me deadline]; rfl,
    by simp only [Call.leaves, h.leaving]; rfl, by simp only [Call.pends, h.pending]; rfl, h.isOn⟩

theorem WaitWhilePhase.Paired.call {p p' : WaitWhilePhase} (h : p.Paired p') :
    Call.Paired (.waitWhile c l timeout p) (.waitWhile c l timeout p') := by
  refine ⟨fun me deadline => by rw [h.mirror me deadline]; rfl, ?_, ?_, h.isOn⟩
  · cases p with
    | waiting start rest q => simp only [Call.leaves, (h.calm start rest q rfl).1]; rfl
    | _ => rfl
  · cases p with
    | waiting start rest q => simp only [Call.pends, (h.calm start rest q rfl).2]; rfl
    | _ => rfl

/-- A step of a joint call goes the same way in both stores. -/
theorem Call.step_twins {call : Call} (h : s.Twin leaves pends chosen s')
    (hforeign : s.Foreign t leaves) (hme : s.Owns t call.me?)
    (hfits : ∀ l, (call.grip l s).Fits s.ids.own.get (s.lock l) t)
    (hraw : ∀ c, s.conds.get c = .raw → ∀ u l, pends u ≠ some (c, l))
    (hdestroy : ∀ o unwinding, call = .destroy o unwinding →
      (∀ u l, .mutex l ∈ o.parts s → leaves u ≠ some l) ∧
        ∀ c f, .condition c ∈ o.parts s → s.conds.get c = .fallback f → f.isQuiescent = true)
    (hon : call.isOn .fallback = true) (hjoint : call.isJoint = true) :
    (call.step t choice s).Twins (Store.Twin leaves pends chosen) Paired
      ((call.mirror me deadline).step t choice s') := by
  cases call with
  | initMutex l =>
    exact (initMutexStep_twins h hforeign l).within (fun _ _ hp => hp) fun _ _ _ hs => ⟨hs, rfl⟩
  | lock l p =>
    have hfits := hfits l
    rw [grip, if_pos rfl] at hfits
    exact (p.step_twins h hforeign hme hfits).within
      (fun _ _ heq => .of_same heq (fun _ _ => rfl) rfl rfl rfl) fun _ _ _ hs => ⟨hs, rfl⟩
  | unlock l p =>
    have hfits := hfits l
    rw [grip, if_pos rfl] at hfits
    exact (p.step_twins h hforeign hme hfits).within
      (fun _ _ heq => .of_same heq (fun _ _ => rfl) rfl rfl rfl) fun _ _ _ hs => ⟨hs, rfl⟩
  | scope l p =>
    have hfits := hfits l
    rw [grip, if_pos rfl] at hfits
    exact (p.step_twins h hforeign hme hfits).within
      (fun _ _ heq => .of_same heq (fun _ _ => rfl) rfl rfl rfl) fun _ _ _ hs => ⟨hs, rfl⟩
  | unlocked l p =>
    have hfits := hfits l
    rw [grip, if_pos rfl] at hfits
    exact (p.step_twins h hforeign hme hfits).within
      (fun _ _ heq => .of_same heq (fun _ _ => rfl) rfl rfl rfl) fun _ _ _ hs => ⟨hs, rfl⟩
  | initCond c backend =>
    obtain rfl : backend = .fallback := by simpa [isOn] using hon
    exact (initCondStep_twins h (hraw c)).within (fun _ _ hp => hp) fun _ _ _ hs => ⟨hs, rfl⟩
  | wakeup c event p =>
    obtain rfl : p = .entry := by simpa [isJoint] using hjoint
    refine (WakeupPhase.entry_twins h).within ?_ fun _ _ _ hs => ⟨hs, rfl⟩
    rintro p p' ⟨rfl, hp⟩
    exact ⟨fun _ _ => rfl, rfl, rfl, hp⟩
  | wait c l timeout p =>
    have hp : ∀ q, p ≠ .fallback q := by
      rintro q rfl
      cases hjoint
    exact (p.step_twins h hforeign hme hon hp).within (fun _ _ hp => hp.call)
      fun _ _ _ hs => ⟨hs, rfl⟩
  | waitWhile c l timeout p =>
    have hp : ∀ start rest q, p ≠ .waiting start rest (.fallback q) := by
      rintro start rest q rfl
      cases hjoint
    exact (p.step_twins h hforeign hme hon hp).within (fun _ _ hp => hp.call)
      fun _ _ _ hs => ⟨hs, rfl⟩
  | destroy o unwinding =>
    obtain ⟨hleft, hquiet⟩ := hdestroy o unwinding rfl
    exact (destroyStep_twins h hon hleft hquiet unwinding).within (fun _ _ hp => hp)
      fun _ _ _ hs => ⟨hs, rfl⟩
  | _ => cases hon

end

end Interlock
