import Interlock.Proofs.Condition.Consistency

/-!
# The entry gate is always opened again

A wait blocks on the gate with the caller's mutex held, and a wakeup leaves the gate closed when it
has returned. Still nobody is stuck on it: while the gate is closed somebody inside can take a step,
and one that needs no mutex.

  * `Fallback.Stuck`: the places at which a step may have to wait, and for what;
  * `Machine.stuck_of_blocked`: there are no others;
  * `Cycle.exists_part`: who takes part in the cycle at every stage but the calm one, and
    `Cycle.exists_not_stuck`: that thread can take a step;
  * `Run.gate_progress`: what follows for the runs.
-/

namespace Interlock

/-! ## Blocked steps

A step of a call inside blocks in four phases only. `Stuck` lists them, and says of each what the
thread needs; that the phases not in the list do not block is checked against the code. -/

/-- A step at the place has to wait: for the gate, for an event, or for the caller's mutex. -/
def Fallback.Stuck (f : Fallback) : Place → Prop
  | .waking _ .enter | .waiting _ _ .enter => f.gate.take? = none
  | .waiting _ _ (.parked _) | .waiting _ _ (.await _) => f.events.take? = none
  | .waiting _ _ (.locking (.take _) _) => True
  | _ => False

variable {t : Tid} {s : Store} {c : CondRef} {f : Fallback}

/-- A whole is not blocked while its part is not. -/
theorem Progress.ne_blocked_of_within {φ ψ ρ τ : Type} {p : Progress φ ρ} {wrap : φ → ψ}
    {finish : Store → ρ → Progress ψ τ} (hp : p ≠ .blocked)
    (hfinish : ∀ s r, finish s r ≠ .blocked) : p.within wrap finish ≠ .blocked := by
  cases p with
  | done s r => exact hfinish s r
  | blocked => exact absurd rfl hp
  | _ => simp [within]

/-- Nothing stops a thread that unlocks. -/
theorem UnlockPhase.ne_blocked {t : Tid} {l : LockRef} {s : Store} {base : Grip}
    (p : UnlockPhase) (hbase : base = .none ∨ base = .full)
    (hfits : (p.grip base).Fits s.ids.own.get (s.lock l) t) : p.step t l s ≠ .blocked := by
  have hinit (hp : p.grip base ≠ .none) : ∃ k, s.lock l = some k := hfits.isSome hp
  cases p with
  | entry =>
    simp only [step, Store.violate]
    split <;> simp
  | check me =>
    obtain ⟨k, hk⟩ := hinit (by rcases hbase with rfl | rfl <;> simp [grip, Grip.meet])
    simp only [step, Store.withLock, hk, Store.violate]
    split <;> simp
  | _ =>
    obtain ⟨k, hk⟩ := hinit (by simp [grip])
    simp [step, Store.withLock, hk]

/-- A wakeup that has begun is blocked by the gate only. -/
theorem WakeupPhase.stuck_of_blocked {event : WakeEvent} {choice : Choice} {p : WakeupPhase}
    (hcond : s.conds.get c = .fallback f) (hinside : p ≠ entry ∧ p ≠ notify)
    (hblocked : p.step c event choice s = .blocked) : f.Stuck (.waking event p) := by
  cases p with
  | entry => exact absurd rfl hinside.1
  | notify => exact absurd rfl hinside.2
  | enter =>
    simp only [step, Store.withFallback, hcond] at hblocked
    split at hblocked
    · cases hblocked
    · assumption
  | _ =>
    simp only [step, Store.withFallback, hcond, Store.violate] at hblocked
    (repeat' split at hblocked) <;> cases hblocked

/-- A wait is blocked by the gate, for want of an event, or by the caller's mutex. -/
theorem FallbackWaitPhase.stuck_of_blocked {l : LockRef} {timeout : Option Duration}
    {p : FallbackWaitPhase} (hcond : s.conds.get c = .fallback f)
    (hunlock : ∀ q, p = unlocking q → q.step t l s ≠ .blocked)
    (hlock : ∀ q w, p = locking q w → q.step t l s = .blocked → ∃ me, q = .take me)
    (hblocked : p.step t c l timeout s = .blocked) : f.Stuck (.waiting l timeout p) := by
  cases p with
  | enter =>
    simp only [step, Store.withFallback, hcond] at hblocked
    split at hblocked
    · cases hblocked
    · assumption
  | parked deadline =>
    simp only [step, Store.withFallback, hcond] at hblocked
    split at hblocked
    · cases hblocked
    · assumption
  | await event =>
    simp only [step, Store.withFallback, hcond, Store.violate] at hblocked
    split at hblocked
    · (repeat' split at hblocked) <;> cases hblocked
    · assumption
  | unlocking p =>
    refine absurd hblocked (Progress.ne_blocked_of_within (hunlock p rfl) ?_)
    simp
  | locking p w =>
    have hp : p.step t l s = .blocked := by
      by_contra hp
      refine absurd hblocked (Progress.ne_blocked_of_within hp ?_)
      simp
    obtain ⟨me, rfl⟩ := hlock p w rfl hp
    trivial
  | _ =>
    -- the other phases always take their step
    simp only [step, Store.withFallback, hcond, Store.violate, afterDeparture] at hblocked
    (repeat' split at hblocked) <;> cases hblocked

namespace Machine

variable {m : Machine}

/-- A thread is blocked when the step of its innermost call is. -/
theorem step_of_blocked {call : Call} {choice : Choice} (hcall : m.call? t = some call)
    (hblocked : (m.advance t choice).2 = .blocked) :
    call.step t choice m.store = .blocked := by
  obtain ⟨outer, hget⟩ : ∃ outer, m.calls.get t = call :: outer := by
    unfold call? at hcall
    exact List.head?_eq_some_iff.1 hcall
  simp only [advance, hget] at hblocked
  split at hblocked <;> first | assumption | (split at hblocked <;> cases hblocked) | cases hblocked

/-- Inside, a thread is blocked only by the gate, for want of an event, or by its mutex. -/
theorem stuck_of_blocked (hids : m.Identified) (hholds : ∀ l, m.Holds l)
    (hcond : m.store.conds.get c = .fallback f) {choice : Choice}
    (hinside : m.place c t ≠ .outside) (hpost : (m.place c t).role ≠ .nowhere)
    (hblocked : (m.advance t choice).2 = .blocked) : f.Stuck (m.place c t) := by
  cases hplace : m.place c t with
  | outside => exact absurd hplace hinside
  | waking e p =>
    have hstep := step_of_blocked (call?_of_waking hplace) hblocked
    rw [hplace] at hpost
    have hwakeup : p.step c e choice m.store = .blocked := by
      by_contra hne
      refine absurd hstep (Progress.ne_blocked_of_within hne ?_)
      simp
    refine WakeupPhase.stuck_of_blocked hcond ⟨?_, ?_⟩ hwakeup
    · rintro rfl
      exact hpost rfl
    · rintro rfl
      exact hpost rfl
  | waiting l d p =>
    obtain ⟨hgrip, hme⟩ := grip_of_waiting hplace hids
    have hfits := (hholds l).grips t
    rw [hgrip] at hfits
    have hstep : p.step t c l d m.store = .blocked := by
      by_contra hne
      have hwait : WaitPhase.step t c l d m.store (.fallback p) ≠ .blocked := by
        apply Progress.ne_blocked_of_within hne
        simp
      -- the wait is a call of its own, or one round of a loop
      rcases call?_of_waiting hplace with hcall | ⟨whole, start, hcall⟩
      · refine absurd (step_of_blocked hcall hblocked) ?_
        apply Progress.ne_blocked_of_within hwait
        simp
      · refine absurd (step_of_blocked hcall hblocked) ?_
        refine Progress.ne_blocked_of_within (Progress.ne_blocked_of_within hwait ?_) ?_
        · simp
        · simp
    refine FallbackWaitPhase.stuck_of_blocked hcond ?_ ?_ hstep
    · rintro q rfl
      exact (q.step_moves hme hfits).2
    · rintro q w rfl
      exact (q.step_moves hme hfits (hholds l) hids.distinct).2

end Machine

/-! ## Somebody can move

At each stage of the cycle but the calm one somebody has the next thing to do. The thread that has
closed the gate is never blocked itself; and where the cycle waits for a sleeper, an event is set,
so any sleeper that is left can take it. -/

/-- A thread that has a part in the cycle is stuck only if it waits for an event. -/
theorem Fallback.Stuck.role {p : Place} (h : f.Stuck p) :
    p.role = .common ∨ ∃ e, p.role = .awaits e ∧ f.events.take? = none := by
  unfold Fallback.Stuck at h
  split at h <;> first
    | exact .inl rfl
    | exact .inr ⟨_, rfl, h⟩
    | exact h.elim

theorem Fallback.Stuck.of_registered {p : Place} (h : f.Stuck p)
    (hp : p.isRegistered = true) : f.events.take? = none := by
  unfold Fallback.Stuck at h
  split at h <;> first | exact h | exact h.elim | cases hp

/-- Somebody takes part in the cycle at every stage but the calm one. A raised event has somebody
to wake: the last sleeper, which waits for it, or else a registered one. -/
theorem Cycle.exists_part {st : Stage} {place : Tid → Place} {crowd : Finset Tid}
    (h : Cycle st f place crowd) (hcalm : st ≠ .calm) :
    ∃ t, ((place t).role ≠ .common ∧ ∀ e, (place t).role ≠ .awaits e) ∨
      f.events.take? ≠ none ∧
        ((∃ e, (place t).role = .awaits e) ∨ (place t).isRegistered = true) := by
  have hown (u : Tid) := h.posts u
  -- a role of its own thread at the stage
  have hbusy {t : Tid} {r : Place.Role} (ht : (place t).role = r) (hr : r ≠ .common)
      (hr' : ∀ e, r ≠ .awaits e) :
      ∃ t, ((place t).role ≠ .common ∧ ∀ e, (place t).role ≠ .awaits e) ∨
        f.events.take? ≠ none ∧
          ((∃ e, (place t).role = .awaits e) ∨ (place t).isRegistered = true) :=
    ⟨t, .inl (ht ▸ ⟨hr, hr'⟩)⟩
  cases st with
  | calm => exact absurd rfl hcalm
  | entering t => exact hbusy ((if_pos rfl).mp (hown t)) (by simp) (by simp)
  | announced e t last => exact hbusy ((if_pos rfl).mp (hown t)) (by simp) (by simp)
  | consumed t => exact hbusy ((if_pos rfl).mp (hown t)) (by simp) (by simp)
  | lowering t => exact hbusy ((if_pos rfl).mp (hown t)) (by simp) (by simp)
  | retracting e t =>
    rcases (if_pos rfl).mp (hown t) with hrole | hrole
    · exact hbusy hrole (by simp) (by simp)
    · exact hbusy hrole (by simp) (by simp)
  | reopening t => exact hbusy ((if_pos rfl).mp (hown t)) (by simp) (by simp)
  | raised e last =>
    obtain ⟨flags, hflags⟩ := EventFlags.take?_put e
    have htake : f.events.take? ≠ none := by
      simp [h.events, Stage.events, hflags]
    cases last with
    | some u => exact ⟨u, .inr ⟨htake, .inl ⟨e, (if_pos rfl).mp (hown u)⟩⟩⟩
    | none =>
      obtain ⟨u, hu⟩ := h.last.1 rfl
      exact ⟨u, .inr ⟨htake, .inr ((h.mem_crowd u).1 hu)⟩⟩

/-- Whoever takes part in the cycle can take a step, if a raised event is what it waits for. -/
theorem Cycle.exists_not_stuck {st : Stage} {place : Tid → Place} {crowd : Finset Tid}
    (h : Cycle st f place crowd) (hcalm : st ≠ .calm) :
    ∃ t, place t ≠ .outside ∧ ¬ f.Stuck (place t) := by
  -- either a thread has a step of its own to take, or the event that is up is what it waits for
  obtain ⟨t, ⟨hrole, hawaits⟩ | ⟨htake, hwaits⟩⟩ := h.exists_part hcalm
  · refine ⟨t, ?_, ?_⟩
    · intro hout
      exact hrole (by rw [hout]; rfl)
    · intro hstuck
      rcases hstuck.role with hcommon | ⟨e, he, -⟩
      · exact hrole hcommon
      · exact hawaits e he
  · refine ⟨t, ?_, ?_⟩
    · intro hout
      rw [hout] at hwaits
      rcases hwaits with ⟨e, he⟩ | hregistered
      · cases he
      · cases hregistered
    · intro hstuck
      rcases hwaits with ⟨e, he⟩ | hregistered
      · rcases hstuck.role with hcommon | ⟨-, -, hnone⟩
        · rw [he] at hcommon
          cases hcommon
        · exact htake hnone
      · exact htake (hstuck.of_registered hregistered)

/-- At the calm stage a blocked thread sleeps, or has left for the caller's mutex. -/
theorem Cycle.stuck_calm {place : Tid → Place} {crowd : Finset Tid} (h : Cycle .calm f place crowd)
    (hstuck : f.Stuck (place t)) :
    (∃ l d deadline, place t = .waiting l d (.parked deadline)) ∨
      ∃ l d me w, place t = .waiting l d (.locking (.take me) w) := by
  -- the gate is open and no event is announced
  have hgate : f.gate.take? ≠ none := by
    rw [h.gate]
    simp [Stage.gate, Permits.take?]
  have hpost : (place t).role = .common := h.posts t
  cases hplace : place t with
  | outside =>
    rw [hplace] at hstuck
    exact hstuck.elim
  | waking e p =>
    rw [hplace] at hstuck
    cases p <;> first | exact absurd hstuck hgate | exact hstuck.elim
  | waiting l d p =>
    rw [hplace] at hstuck hpost
    cases p with
    | parked deadline => exact .inl ⟨l, d, deadline, rfl⟩
    | await e => cases hpost
    | enter => exact absurd hstuck hgate
    | locking p w =>
      cases p with
      | take me => exact .inr ⟨l, d, me, w, rfl⟩
      | _ => exact hstuck.elim
    | _ => exact hstuck.elim

namespace Run

variable {r : Run}

theorem not_nowhere {st : Stage} {u : Tid} {role : Place.Role} (h : st.Post u role) :
    role ≠ .nowhere := by
  rintro rfl
  exact h.allows

/-- In every state of a run within the limit, if the entry gate of a portable condition variable
is closed, then some thread inside can take a step, and not one that takes the caller's mutex. So
nobody is stuck on the gate: where every thread inside is blocked, the gate is open, nothing is
published, and each of them sleeps or waits for its mutex after having deregistered. -/
theorem gate_progress (hlimit : r.WithinLimit c) (i : Nat)
    (hcond : (r.state i).store.conds.get c = .fallback f) :
    (f.gate.available = 0 → ∃ t, (r.state i).place c t ≠ .outside ∧
      (∀ l d me w, (r.state i).place c t ≠ .waiting l d (.locking (.take me) w)) ∧
      ∀ choice, ((r.state i).advance t choice).2 ≠ .blocked) ∧
    ((∀ t, (r.state i).place c t ≠ .outside →
        ∃ choice, ((r.state i).advance t choice).2 = .blocked) →
      f.gate.available = 1 ∧ f.mode = 0 ∧ ∀ t, (r.state i).place c t ≠ .outside →
        (∃ l d deadline, (r.state i).place c t = .waiting l d (.parked deadline)) ∨
          ∃ l d me w, (r.state i).place c t = .waiting l d (.locking (.take me) w)) := by
  obtain ⟨st, hcycle⟩ := (state_orderly hlimit i).portable f hcond
  -- only a place that is stuck holds its thread up
  have hstuck {t : Tid} {choice : Choice} (hinside : (r.state i).place c t ≠ .outside)
      (hblocked : ((r.state i).advance t choice).2 = .blocked) :
      f.Stuck ((r.state i).place c t) :=
    Machine.stuck_of_blocked (r.state_identified i) (fun l => r.state_holds l i) hcond hinside
      (not_nowhere (hcycle.posts t)) hblocked
  constructor
  · intro hclosed
    have hcalm : st ≠ .calm := by
      rintro rfl
      rw [hcycle.gate] at hclosed
      cases hclosed
    obtain ⟨t, hinside, hfree⟩ := hcycle.exists_not_stuck hcalm
    refine ⟨t, hinside, ?_, ?_⟩
    · intro l d me w hplace
      apply hfree
      rw [hplace]
      trivial
    · intro choice hblocked
      exact hfree (hstuck hinside hblocked)
  · intro hall
    have hcalm : st = .calm := by
      by_contra hcalm
      obtain ⟨t, hinside, hfree⟩ := hcycle.exists_not_stuck hcalm
      obtain ⟨choice, hblocked⟩ := hall t hinside
      exact hfree (hstuck hinside hblocked)
    subst hcalm
    refine ⟨by rw [hcycle.gate]; rfl, hcycle.mode_eq, ?_⟩
    intro t hinside
    obtain ⟨choice, hblocked⟩ := hall t hinside
    exact hcycle.stuck_calm (hstuck hinside hblocked)

/-- Thread 0 sleeps, and thread 1 has returned from a signal and left the gate closed. -/
def signalled : Run :=
  ofList (prelude ++ sleeping none ++ .begin 1 (.waking 1 .one) :: steps 1 4) (by decide +kernel)

/-- While the gate is closed a sleeper can take the event. Before the signal, with everybody asleep,
it is open. -/
theorem gate_progress_signalled :
    signalled.WithinLimit 1 ∧
      (∃ f, (signalled.state 27).store.conds.get 1 = .fallback f ∧ f.gate.available = 0 ∧
        ∃ t, (signalled.state 27).place 1 t ≠ .outside ∧
          ∀ choice, ((signalled.state 27).advance t choice).2 ≠ .blocked) ∧
      ∃ f, (signalled.state 22).store.conds.get 1 = .fallback f ∧ f.gate.available = 1 := by
  have hlimit : signalled.WithinLimit 1 := withinLimit_ofList _ (by decide +kernel)
  have hclosed : (signalled.state 27).store.conds.get 1 =
      .fallback ⟨0x40000001, ⟨0, 1⟩, ⟨true, false⟩⟩ := by decide +kernel
  have hopen : (signalled.state 22).store.conds.get 1 = .fallback ⟨1, ⟨1, 1⟩, .clear⟩ := by
    decide +kernel
  refine ⟨hlimit, ⟨_, hclosed, rfl, ?_⟩, _, hopen, ?_⟩
  · obtain ⟨t, hinside, -, hmoves⟩ := (gate_progress hlimit 27 hclosed).1 rfl
    exact ⟨t, hinside, hmoves⟩
  · refine ((gate_progress hlimit 22 hopen).2 fun t hinside => ⟨⟨0, false⟩, ?_⟩).1
    match t with
    | 0 => decide +kernel
    | 1 => exact absurd (by decide +kernel) hinside
    | t + 2 =>
      have hunborn : 2 ≤ t + 2 := Nat.le_add_left 2 t
      exact absurd ((signalled.state_sound 22).place_of_unborn hunborn) hinside

end Run

end Interlock
