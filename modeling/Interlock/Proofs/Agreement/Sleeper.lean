import Interlock.Proofs.Agreement.Foresight

/-!
# Sleepers and their twins

Calls that wait, and what their inner steps do to a store and its twin.

  * `Call.Waiter`: the two kinds of calls that wait;
  * `FallbackWaitPhase.isQuiet`, `FallbackWaitPhase.step_quiet`: steps in which the twin does not
    move;
  * `Store.Twin.turn`, `Store.Twin.vacate`, `Store.Twin.settle`: what the others do to the stores.

The steps of a sleeper are sorted by which difference between the stores they touch: none of them,
the mutex that the sleeper leaves, or the queue of its condition variable. For each of these there
is one lemma about stores, which knows nothing of machines or calls.
-/

namespace Interlock

/-! ## Calls that wait

A wait is a call of its own, and also a part of a loop around waits. `Call.Waiter` abstracts from
the difference: what wraps the phases of the wait, and how the call goes on when the wait has ended.
All that the simulation needs to know of a call that waits follows from that. -/

/-- A wait, and a loop around waits: the call in each of its phases, and how it goes on. -/
inductive Call.Waiter (c : CondRef) (l : LockRef) (timeout : Option Duration) :
    (WaitPhase → Call) → (Store → Bool → Progress Call Reply) → Prop
  | plain : Waiter c l timeout (wait c l timeout) fun s woken => .done s (.flag woken)
  | loop (whole : Option Duration) (start : Instant) :
    Waiter c l timeout (fun p => waitWhile c l whole (.waiting start timeout p))
      fun s _ => .next s (waitWhile c l whole (.test start))

/-- Whether a sleeper is about to take its mutex back. -/
def WaitPhase.isTaking : WaitPhase → Bool
  | native (.retake _ _) | fallback (.locking (.take _) _) => true
  | _ => false

namespace Call.Waiter

variable {c : CondRef} {l : LockRef} {timeout : Option Duration} {wrap : WaitPhase → Call}
  {finish : Store → Bool → Progress Call Reply} {t : Tid} {choice : Choice} {s s' : Store}
  {p : WaitPhase} {q q' : NativeWaitPhase} {m : Machine} {outer : List Call}

/-- A step of a call that waits is one of its wait. -/
theorem step (hw : Waiter c l timeout wrap finish) (t : Tid) (choice : Choice) (s : Store)
    (p : WaitPhase) :
    (wrap p).step t choice s = (p.step t c l timeout s).within wrap finish := by
  cases hw with
  | plain => rfl
  | loop whole start =>
    simp only [Call.step, lift, WaitWhilePhase.step]
    cases p.step t c l timeout s <;> rfl

theorem mirror (hw : Waiter c l timeout wrap finish) (me : ThreadId) (deadline : Option Instant)
    (p : WaitPhase) : (wrap p).mirror me deadline = wrap (p.mirror me deadline) := by
  cases hw <;> rfl

theorem leaves (hw : Waiter c l timeout wrap finish) (p : WaitPhase) :
    (wrap p).leaves = if p.isLeaving then some l else none := by
  cases hw <;> rfl

theorem pends (hw : Waiter c l timeout wrap finish) (p : WaitPhase) :
    (wrap p).pends = if p.isPending then some (c, l) else none := by
  cases hw <;> rfl

theorem isOn (hw : Waiter c l timeout wrap finish) (backend : Backend) (p : WaitPhase) :
    (wrap p).isOn backend = p.isOn backend := by
  cases hw <;> rfl

theorem atBody (hw : Waiter c l timeout wrap finish) (p : WaitPhase) :
    (wrap p).atBody = false := by
  cases hw <;> rfl

theorem child? (hw : Waiter c l timeout wrap finish) (p : WaitPhase) :
    (wrap p).child? = none := by
  cases hw <;> rfl

theorem punctual (hw : Waiter c l timeout wrap finish) (now : Instant) (deadline : Option Instant)
    (p : WaitPhase) : (wrap p).Punctual now deadline = p.Punctual now timeout deadline := by
  cases hw <;> rfl

theorem place (hw : Waiter c l timeout wrap finish) (d : CondRef) (p : WaitPhase) :
    (wrap p).place d = if c = d then p.place l timeout else .outside := by
  cases hw <;> rfl

/-- Where a thread is in the middle of its wait. -/
theorem place_of_call? (hw : Waiter c l timeout wrap finish) {p : FallbackWaitPhase}
    (hcall : m.call? t = some (wrap (.fallback p))) (d : CondRef) :
    m.place d t = if c = d then .waiting l timeout p else .outside := by
  rw [Machine.place, Machine.see_of_call? hcall, hw.place]
  rfl

/-- Either call is a waiter in its waits. -/
theorem exists_of_not_joint {call : Call} (hjoint : call.isJoint = false) :
    (∃ c e p, call = wakeup c e p ∧ p ≠ .entry) ∨
      ∃ c l timeout wrap finish p, Waiter c l timeout wrap finish ∧ call = wrap (.fallback p) := by
  cases call with
  | wakeup c e p => exact .inl ⟨c, e, p, rfl, by simpa [isJoint] using hjoint⟩
  | wait c l timeout p =>
    cases p with
    | fallback p => exact .inr ⟨c, l, timeout, _, _, p, .plain, rfl⟩
    | _ => cases hjoint
  | waitWhile c l whole p =>
    cases p with
    | waiting start rest p =>
      cases p with
      | fallback p => exact .inr ⟨c, l, rest, _, _, p, .loop whole start, rfl⟩
      | _ => cases hjoint
    | _ => cases hjoint
  | _ => cases hjoint

/-- A call that waits wants its mutex when it is about to take it back, -/
theorem wanted (hw : Waiter c l timeout wrap finish) (hcall : m.call? t = some (wrap p)) :
    m.wanted t = if p.isTaking then some l else none := by
  rw [Machine.wanted, hcall]
  cases p with
  | native p => cases hw <;> cases p <;> rfl
  | fallback p =>
    cases p with
    | locking p w => cases hw <;> cases p <;> rfl
    | _ => cases hw <;> rfl
  | _ => cases hw <;> rfl

/-- and takes it then. -/
theorem takes (hw : Waiter c l timeout wrap finish) (hcall : m.call? t = some (wrap p)) :
    m.takes t = if p.isTaking then [.took t l] else [] := by
  rw [Machine.takes, hw.wanted hcall]
  cases p.isTaking <;> rfl

theorem allows (hw : Waiter c l timeout wrap finish) (hcall : m.call? t = some (wrap p))
    (choice : Choice) : m.allows (.advance t choice) = true := by
  cases hw <;> simp only [Machine.allows, hcall]

/-- A step of a wait, in either machine. -/
theorem advance_next (hw : Waiter c l timeout wrap finish) {p' : WaitPhase} (choice : Choice)
    (hget : m.calls.get t = wrap p :: outer)
    (hstep : p.step t c l timeout m.store = .next s p') :
    m.advance t choice = (⟨s, m.calls.set t (wrap p' :: outer)⟩, .working) := by
  have hcall : (wrap p).step t choice m.store = .next s (wrap p') := by
    rw [hw.step, hstep]
    rfl
  rw [Machine.advance_of_next hget hcall (hw.child? p'), hw.atBody]
  rfl

/-- The twin takes a step of its wait. -/
theorem goes (hw : Waiter c l timeout wrap finish)
    (hget : m.calls.get t = wrap (.native q) :: outer)
    (hstep : q.step t c l timeout m.store = .next s q') :
    m.Goes (if (WaitPhase.native q).isTaking then [.took t l] else [])
      ⟨s, m.calls.set t (wrap (.native q') :: outer)⟩ := by
  have hcall := Machine.call?_of_get hget
  have hphase : (WaitPhase.native q).step t c l timeout m.store = .next s (.native q') := by
    rw [WaitPhase.step, hstep]
    rfl
  have hadvance := hw.advance_next ⟨0, false⟩ hget hphase
  have hgoes := Machine.Goes.move (hw.allows hcall ⟨0, false⟩) rfl
  simp only [Machine.shows, Machine.apply, hadvance, Machine.reports, hw.takes hcall] at hgoes
  simpa [Notice.isShown] using hgoes

end Call.Waiter

/-! ## Quiet steps

Most steps of a sleeper only prepare another one: they read a word, count, or write the log. Neither
the phase of the twin nor its store has to change, and so the twin makes no move. -/

/-- A store changes only at a portable condition variable, whose event `all` stays as it is, and in
its log. -/
structure Store.Aside (c : CondRef) (s s' : Store) : Prop where
  rest : ∃ conds log, s' = { s with conds := conds, log := log }
  others : ∀ d, d ≠ c → s'.conds.get d = s.conds.get d
  all : ∃ f f', s.conds.get c = .fallback f ∧ s'.conds.get c = .fallback f' ∧
    f'.events.all = f.events.all

section

variable {leaves : Tid → Option LockRef} {pends : Tid → Option (CondRef × LockRef)}
  {chosen : CondRef → Option Tid} {s s' s₁ : Store} {t : Tid} {c : CondRef} {l : LockRef}
  {timeout : Option Duration} {f f' : Fallback}

/-- A step that writes nothing changes nothing, -/
theorem Store.Aside.refl (hcond : s.conds.get c = .fallback f) : s.Aside c s :=
  ⟨⟨_, _, rfl⟩, fun _ _ => rfl, f, f, hcond, hcond, rfl⟩

/-- and one that writes the portable condition variable changes only that. -/
theorem Store.Aside.of_write (hcond : s.conds.get c = .fallback f)
    (hall : f'.events.all = f.events.all)
    (hconds : s'.conds = s.conds.set c (.fallback f') := by rfl)
    (hrest : ∃ conds log, s' = { s with conds := conds, log := log } := by exact ⟨_, _, rfl⟩) :
    s.Aside c s' where
  rest := hrest
  others d hd := by rw [hconds, Table.get_set_of_ne _ _ hd]
  all := ⟨f, f', hcond, by rw [hconds, Table.get_set_self], hall⟩

/-- The twin need not change. -/
theorem Store.Twin.aside (h : s.Twin leaves pends chosen s') (haside : s.Aside c s₁) :
    s₁.Twin leaves pends chosen s' := by
  obtain ⟨conds, log, rfl⟩ := haside.rest
  refine ⟨?_, h.locks, h.left, ?_⟩
  · obtain ⟨_, _, _, rfl⟩ := h.rest
    exact ⟨_, _, _, rfl⟩
  · intro d
    by_cases hd : d = c
    · subst hd
      obtain ⟨f, f', hf, hf', hall⟩ := haside.all
      have hcond := h.conds d
      rw [hf] at hcond
      rw [hf']
      generalize s'.conds.get d = cond' at hcond
      cases hcond with
      | portable hnodup hmem => exact .portable hnodup (hall ▸ hmem)
    · rw [haside.others d hd]
      exact h.conds d

/-- A thread that leaves a mutex changes it. -/
theorem Store.Twin.setLeft (h : s.Twin leaves pends chosen s') (ht : leaves t = some l)
    (k : LockState) : (s.setLock l k).Twin leaves pends chosen s' := by
  refine ⟨?_, ?_, h.left, h.conds⟩
  · obtain ⟨_, _, _, rfl⟩ := h.rest
    exact ⟨_, _, _, rfl⟩
  · intro j hj
    rw [Store.setLock, lock_setMutex, if_neg (fun heq : j = l => hj t (heq ▸ ht))]
    exact h.locks j hj

/-- A thread that leaves a mutex releases it. -/
theorem Store.Twin.settle (h : s.Twin leaves pends chosen s') (ht : leaves t = some l) :
    (s.setLock l .free).Twin (Function.update leaves t none) pends chosen s' := by
  refine ⟨?_, ?_, ?_, h.conds⟩
  · obtain ⟨_, _, _, rfl⟩ := h.rest
    exact ⟨_, _, _, rfl⟩
  · intro j hj
    rw [Store.setLock, lock_setMutex]
    split
    · subst j
      exact h.left t l ht
    · refine h.locks j fun u hu => ?_
      by_cases hut : u = t
      · subst hut
        cases ht.symm.trans hu
        contradiction
      · exact hj u (by rwa [Function.update_of_ne hut])
  · intro u j hu
    by_cases hut : u = t
    · subst hut
      rw [Function.update_self] at hu
      cases hu
    · rw [Function.update_of_ne hut] at hu
      exact h.left u j hu

/-- The twin of a thread that leaves a mutex has released it. -/
theorem Store.Twin.vacate (h : s.Twin leaves pends chosen s') (ht : leaves t = none)
    (hrest : ∃ locks, s₁ = { s' with locks := locks }) (hfree : s₁.lock l = some .free)
    (hothers : ∀ j, j ≠ l → s₁.lock j = s'.lock j) :
    s.Twin (Function.update leaves t (some l)) pends chosen s₁ := by
  obtain ⟨locks, rfl⟩ := hrest
  refine ⟨?_, ?_, ?_, h.conds⟩
  · obtain ⟨_, _, _, rfl⟩ := h.rest
    exact ⟨_, _, _, rfl⟩
  · intro j hj
    have hjl : j ≠ l := by
      rintro rfl
      exact hj t (Function.update_self ..)
    rw [hothers j hjl]
    refine h.locks j fun u hu => ?_
    -- thread `t` leaves nothing before
    have hut : u ≠ t := by
      rintro rfl
      cases ht.symm.trans hu
    exact hj u (by rwa [Function.update_of_ne hut])
  · intro u j hu
    by_cases hjl : j = l
    · rw [hjl]
      exact hfree
    · rw [hothers j hjl]
      refine h.left u j ?_
      by_cases hut : u = t
      · subst hut
        rw [Function.update_self] at hu
        cases hu
        contradiction
      · rwa [Function.update_of_ne hut] at hu

/-- Thread `t` comes to sleep on condition variable `c`, or does not sleep on it any more, and the
choice there may become another one. -/
theorem Store.Twin.turn {later : CondRef → Option Tid} {x : Option (CondRef × LockRef)}
    {s₁' : Store} (h : s.Twin leaves pends chosen s')
    (ht : ∀ d k, pends t = some (d, k) → d = c) (hx : ∀ d k, x = some (d, k) → d = c)
    (hlater : ∀ d, d ≠ c → later d = chosen d)
    (hrest : ∃ conds log, s₁ = { s with conds := conds, log := log })
    (hrest' : ∃ conds, s₁' = { s' with conds := conds })
    (hothers : ∀ d, d ≠ c → s₁.conds.get d = s.conds.get d)
    (hothers' : ∀ d, d ≠ c → s₁'.conds.get d = s'.conds.get d)
    (hcond : (s₁.conds.get c).Twin
      (fun u k => Function.update pends t x u = some (c, k) ∧ later c ≠ some u)
      (s₁'.conds.get c)) :
    s₁.Twin leaves (Function.update pends t x) later s₁' := by
  obtain ⟨conds, log, rfl⟩ := hrest
  obtain ⟨conds', rfl⟩ := hrest'
  refine ⟨?_, h.locks, h.left, ?_⟩
  · obtain ⟨_, _, _, rfl⟩ := h.rest
    exact ⟨_, _, _, rfl⟩
  · intro d
    by_cases hd : d = c
    · subst hd
      exact hcond
    · rw [hothers d hd, hothers' d hd, hlater d hd]
      -- thread `t` is not on `d`, before or after
      have hsame (u : Tid) (k : LockRef) :
          Function.update pends t x u = some (d, k) ↔ pends u = some (d, k) := by
        by_cases hut : u = t
        · subst hut
          rw [Function.update_self]
          exact ⟨fun heq => absurd (hx d k heq) hd, fun heq => absurd (ht d k heq) hd⟩
        · rw [Function.update_of_ne hut]
      simp only [hsame]
      exact h.conds d

/-- The steps in which the twin of a sleeper does not move and no mutex changes. -/
def FallbackWaitPhase.isQuiet : FallbackWaitPhase → Bool
  | enter | handBack | listen | depart _ | await _ | retract _ | reopen _ => true
  | unlocking .entry | unlocking (.check _) | locking .entry _ | locking (.check _) _ => true
  | _ => false

/-- A phase that the same phase of the twin belongs to. -/
structure FallbackWaitPhase.Keeps (now : Instant) (timeout : Option Duration)
    (p p' : FallbackWaitPhase) : Prop where
  leaving : p'.isLeaving = p.isLeaving
  pending : p'.isPending = p.isPending
  mirror : ∀ me deadline, p'.mirror me deadline = p.mirror me deadline
  punctual : ∀ deadline, p.Punctual now timeout deadline → p'.Punctual now timeout deadline

theorem EventFlags.all_of_take {flags flags' : EventFlags} {e : WakeEvent}
    (h : flags.take? = some (e, flags')) : flags'.all = flags.all := by
  rcases flags.take_cases with ⟨-, htake⟩ | ⟨-, -, htake⟩ | ⟨-, -, htake⟩ <;>
    cases h.symm.trans htake <;> rfl

theorem Store.currentId_of_known (h : s.ids.own.get t ≠ .nobody) :
    s.currentId t = (s, s.ids.own.get t) := by
  simp only [Store.currentId, Identities.current, if_neg h]

/-- What a quiet step leaves. -/
theorem FallbackWaitPhase.step_quiet {p : FallbackWaitPhase} (hquiet : p.isQuiet = true)
    (hcond : s.conds.get c = .fallback f) (hknown : s.ids.own.get t ≠ .nobody) :
    (p.step t c l timeout s).Meets
      (fun s' p' => s.Aside c s' ∧ p.Keeps s.clock timeout p') (fun _ _ => False)
      fun _ => True := by
  -- a quiet step writes at most the word and the gate, and none of that is in the twin
  cases p with
  | unlocking p =>
    cases p with
    | entry =>
      simp only [step, UnlockPhase.step, Store.currentId_of_known hknown]
      split
      · trivial
      · exact ⟨.refl hcond, rfl, rfl, fun _ _ => rfl, fun _ h => h⟩
    | check me =>
      simp only [step, UnlockPhase.step, Store.withLock]
      (repeat' split) <;> first
        | trivial
        | exact ⟨.refl hcond, rfl, rfl, fun _ _ => rfl, fun _ h => h⟩
    | _ => cases hquiet
  | locking p w =>
    cases p with
    | entry =>
      simp only [step, LockPhase.step, Store.currentId_of_known hknown]
      split
      · trivial
      · exact ⟨.refl hcond, rfl, rfl, fun _ _ => rfl, fun _ h => h⟩
    | check me =>
      simp only [step, LockPhase.step, Store.withLock]
      (repeat' split) <;> first
        | trivial
        | exact ⟨.refl hcond, rfl, rfl, fun _ _ => rfl, fun _ h => h⟩
    | _ => cases hquiet
  | listen => exact ⟨.refl hcond, rfl, rfl, fun _ _ => rfl, fun _ h => h⟩
  | await e =>
    simp only [step, Store.withFallback, hcond]
    split
    · rename_i htake
      have hall := EventFlags.all_of_take htake
      (repeat' split) <;> first
        | trivial
        | exact ⟨.of_write hcond hall, rfl, rfl, fun _ _ => rfl, fun _ h => h⟩
    · trivial
  | enter | handBack | depart | retract | reopen =>
    simp only [step, Store.withFallback, hcond, afterDeparture]
    (repeat' split) <;> first
      | trivial
      | (refine ⟨.of_write hcond ?_, rfl, rfl, fun _ _ => rfl, fun _ h => h⟩; rfl)
  | _ => cases hquiet

/-- A wait ends when the thread has written its identity into the owner word. -/
theorem FallbackWaitPhase.claim_of_done {p : FallbackWaitPhase} {woken : Bool}
    (h : p.step t c l timeout s = .done s' woken) : ∃ me w, p = locking (.claim me) w := by
  cases p with
  | locking p w =>
    cases p with
    | claim me => exact ⟨me, w, rfl⟩
    | _ =>
      simp only [step, LockPhase.step, Store.withLock, Store.violate] at h
      (repeat' split at h) <;> cases h
  | unlocking p =>
    simp only [step] at h
    cases hp : p.step t l s <;> rw [hp] at h <;> cases h
  | listen => cases h
  | _ =>
    simp only [step, Store.withFallback, Store.violate, afterDeparture] at h
    (repeat' split at h) <;> cases h

/-- Whoever has registered hands the gate back next. -/
theorem FallbackWaitPhase.handBack_of_register {p' : FallbackWaitPhase}
    (h : register.step t c l timeout s = .next s' p') : p' = handBack := by
  simp only [step, Store.withFallback, Store.violate] at h
  (repeat' split at h) <;> cases h
  rfl

end

end Interlock
