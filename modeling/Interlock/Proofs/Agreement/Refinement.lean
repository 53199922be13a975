import Interlock.Proofs.Agreement.Halt

/-!
# The portable backend refines the platform's

Whatever a program can do with portable condition variables, it can do with the platform's. The twin
of a machine matches every move, and so every run.

  * `Run.OneMutex`: no condition variable is waited on with two mutexes at the same time;
  * `Machine.Agrees.step`: the twin follows one move, and `Run.exists_agrees`: a whole run;
  * `Run.refines_native`: for every run on the portable backend there is one on the platform's in
    which clients see the same, and which stops at the same obstacles if nothing can run;
  * `Run.contended`: a run in which a thread that was woken cannot have its mutex back.
-/

namespace Interlock

/-! ## One move

Three kinds of moves have been treated: those of clients, the steps of joint calls, and the inner
steps of waits and wakeups. Every move is of one of these kinds. -/

namespace Machine

variable {m m' : Machine} {move : Move} {later : CondRef → Option Tid}
  {deadline : Tid → Option Instant} {t : Tid} {choice : Choice}

theorem foresee_of_outside (h : ∀ c, m.place c t = .outside) :
    m.foresee (.advance t choice) later = later := by
  funext c
  simp only [foresee, h]

/-- The twin follows a step of a thread. -/
theorem Agrees.advances (h : m.Agrees (m.foresee (.advance t choice) later) deadline m')
    (hregular : m.Regular) (hallows : m.allows (.advance t choice) = true)
    (hroom : ∀ c, m.hasRoom c (.advance t choice) = true)
    (hchooses : m.Chooses (m.foresee (.advance t choice) later))
    (hlater : (m.apply (.advance t choice)).Chooses later)
    (hmutex : (m.apply (.advance t choice)).OneMutex) :
    Matched later m' (m.shows (.advance t choice)) (m.apply (.advance t choice)) := by
  -- a thread in no call, in a joint call, or at a condition variable
  cases hget : m.calls.get t with
  | nil =>
    have hplace (c : CondRef) : m.place c t = .outside := by
      rw [place, see, Machine.call?, hget]
      rfl
    have hadvance : m.advance t choice = (m, .blocked) := by
      simp only [Machine.advance, hget]
    rw [foresee_of_outside hplace] at h
    simp only [shows, apply, hadvance, reports]
    exact h.matched
  | cons call outer =>
    cases hjoint : call.isJoint with
    | true =>
      have hplace (c : CondRef) : m.place c t = .outside := by
        rw [place, see_of_call? (call?_of_get hget)]
        exact Call.place_of_joint hjoint c
      rw [foresee_of_outside hplace] at h
      exact h.joint hregular hallows hget hjoint
    | false =>
      rcases Call.Waiter.exists_of_not_joint hjoint with ⟨c, e, p, rfl, hp⟩ |
        ⟨c, l, timeout, wrap, finish, p, hwaiter, rfl⟩
      · have hcalls : m.Calls m' _ deadline t c e p outer := ⟨h, hregular, hget, hp⟩
        exact hcalls.step (hroom c) hlater
      · have hattends : m.Attends m' _ deadline t c l timeout wrap finish p outer :=
          ⟨h, hregular, hwaiter, hget⟩
        exact hattends.step (hroom c) hchooses hlater hmutex

/-- The twin follows a move. -/
theorem Agrees.step (h : m.Agrees (m.foresee move later) deadline m') (hregular : m.Regular)
    (hallows : m.allows move = true) (hon : move.isOn .fallback = true)
    (hroom : ∀ c, m.hasRoom c move = true) (hchooses : m.Chooses (m.foresee move later))
    (hlater : (m.apply move).Chooses later) (hmutex : (m.apply move).OneMutex) :
    Matched later m' (m.shows move) (m.apply move) := by
  by_cases hadvance : ∃ t choice, move = .advance t choice
  · obtain ⟨t, choice, rfl⟩ := hadvance
    exact h.advances hregular hallows hroom hchooses hlater hmutex
  · have hmove (t : Tid) (choice : Choice) : move ≠ .advance t choice :=
      fun heq => hadvance ⟨t, choice, heq⟩
    have hsame : m.foresee move later = later := by
      funext c
      cases move with
      | advance t choice => exact absurd rfl (hmove t choice)
      | _ => rfl
    rw [hsame] at h
    exact h.client hregular hallows hon hmove

end Machine

/-! ## Runs

The induction is on the length of the run, with the choice at its end arbitrary: the choice before
the last move is computed from the one after it, so the twin of the shorter run has to exist for
that one. -/

namespace Run

variable {r : Run} {m : Machine} {events : List Shown}

/-- No condition variable is waited on with two different mutexes at the same time. -/
def OneMutex (r : Run) : Prop := ∀ i, (r.state i).OneMutex

/-- Whoever the wakeups that are on their way will wake, the twin of a run can have shown the same
and be where it belongs. -/
theorem exists_agrees (hon : r.IsOn .fallback) (hlimit : ∀ c, r.WithinLimit c)
    (hmutex : r.OneMutex) (n : Nat) (chosen : CondRef → Option Tid)
    (hchooses : (r.state n).Chooses chosen) :
    ∃ deadline m', Machine.initial.Goes (r.trace n) m' ∧ (r.state n).Agrees chosen deadline m' := by
  induction n generalizing chosen with
  | zero => exact ⟨_, _, .refl _, Machine.agrees_initial chosen⟩
  | succ n ih =>
    have hregular := state_regular hlimit n
    -- the choice after the move says whom the wakeups had chosen before it
    have hbefore := hchooses.foresee hregular fun c => state_event (hlimit c) n
    obtain ⟨deadline, m', hgoes, hagrees⟩ := ih _ hbefore
    obtain ⟨deadline', m'', hgoes', hagrees'⟩ := hagrees.step hregular (r.state_allows n) (hon n)
      (fun c => hlimit c n) hbefore hchooses (hmutex (n + 1))
    refine ⟨deadline', m'', ?_, hagrees'⟩
    rw [trace_succ]
    exact hgoes.trans hgoes'

/-- Moves of a program on the platform's backend are the beginning of a run. -/
theorem exists_of_goes (h : Machine.initial.Goes events m) :
    ∃ (r : Run) (n : Nat), r.IsOn .native ∧ r.trace n = events ∧ r.state n = m := by
  obtain ⟨moves, hfeasible, hon, rfl, rfl⟩ := h
  exact ⟨ofList moves hfeasible, moves.length, isOn_ofList hfeasible hon,
    trace_ofList hfeasible, state_ofList hfeasible⟩

/-- In a program on the portable backend no condition variable is the platform's. -/
theorem state_portable (hon : r.IsOn .fallback) (hlimit : ∀ c, r.WithinLimit c)
    (hmutex : r.OneMutex) (i : Nat) (c : CondRef) (q : NativeQueue) :
    (r.state i).store.conds.get c ≠ .native q := by
  intro hcond
  obtain ⟨chosen, hchooses⟩ := (r.state i).exists_chooses
  obtain ⟨deadline, m', -, hagrees⟩ := exists_agrees hon hlimit hmutex i chosen hchooses
  have htwin := hagrees.store.conds c
  rw [hcond] at htwin
  cases htwin

/-- A wait that has checked its condition variable finds it initialized when it looks again. -/
theorem state_ready (hon : r.IsOn .fallback) (hlimit : ∀ c, r.WithinLimit c) (hmutex : r.OneMutex)
    (i : Nat) : (r.state i).Ready := by
  induction i with
  | zero => exact Machine.ready_initial
  | succ i ih =>
    exact ih.change (state_regular hlimit i) (state_portable hon hlimit hmutex i)
      (fun c => hlimit c i) (r.state_change i)

/-- Take any run of a program that works with mutexes and with portable condition variables, in
which no condition variable is waited on with two mutexes at the same time and sleepers are within
what the word can count. The same program has a run with the platform's condition variables in
which clients see the same: the calls and how each of them ends, and who takes which mutex, all in
the same order. And where nothing can run in the first one, the same threads are stopped in the
second one, by the same obstacles. -/
theorem refines_native (hon : r.IsOn .fallback) (hlimit : ∀ c, r.WithinLimit c)
    (hmutex : r.OneMutex) (n : Nat) :
    ∃ (r' : Run) (k : Nat), r'.IsOn .native ∧ r'.trace k = r.trace n ∧
      ((r.state n).Halted → (r.state n).HaltsAs (r'.state k)) := by
  obtain ⟨chosen, hchooses⟩ := (r.state n).exists_chooses
  obtain ⟨deadline, m', hgoes, hagrees⟩ := exists_agrees hon hlimit hmutex n chosen hchooses
  obtain ⟨r', k, hon', htrace, rfl⟩ := exists_of_goes hgoes
  refine ⟨r', k, hon', htrace, fun hhalted => ?_⟩
  exact hagrees.haltsAs (state_regular hlimit n) (state_ready hon hlimit hmutex n) hchooses hhalted

end Run

/-! ## A run

In finite runs with few threads the assumptions can be checked: who sleeps where is looked up for
those threads that exist. -/

namespace Machine.Sound

variable {m : Machine}

theorem pends_of_unborn (hsound : m.Sound) {t : Tid} (ht : m.store.nextThread ≤ t) :
    m.pends t = none := by
  rw [pends, see, call?, hsound.unborn t ht]
  rfl

/-- Only the threads that exist have to be looked at. -/
theorem oneMutex_of_born (hsound : m.Sound)
    (h : ∀ t < m.store.nextThread, ∀ u < m.store.nextThread, ∀ w ∈ m.pends t, ∀ w' ∈ m.pends u,
      w.1 = w'.1 → w.2 = w'.2) : m.OneMutex := by
  intro c t u l k ht hu
  have hborn {v : Tid} {w : CondRef × LockRef} (hv : m.pends v = some w) :
      v < m.store.nextThread := by
    by_contra hle
    rw [hsound.pends_of_unborn (Nat.not_lt.1 hle)] at hv
    cases hv
  exact h t (hborn ht) u (hborn hu) _ ht _ hu rfl

end Machine.Sound

namespace Run

/-- Where few threads exist, few can register. -/
theorem withinLimit_of_threads {r : Run}
    (h : ∀ i, (r.state i).store.nextThread + 1 < Fallback.sleepersLimit) (c : CondRef) :
    r.WithinLimit c := by
  intro i
  have hcard : ((r.state i).registered c).card ≤ (r.state i).store.nextThread := by
    have hle := Finset.card_filter_le (Finset.range (r.state i).store.nextThread)
      fun t => ((r.state i).place c t).isRegistered = true
    rwa [Finset.card_range] at hle
  have hlimit := h i
  unfold Machine.hasRoom
  split
  · split
    · exact decide_eq_true (Nat.lt_of_le_of_lt (Nat.add_le_add_right hcard 1) hlimit)
    · rfl
  · rfl

/-- Thread 0 sleeps. Thread 1 locks the mutex, signals, and keeps the mutex; thread 0 wakes up and
wants it back. -/
def contended : Run :=
  ofList (prelude ++ sleeping none ++ .begin 1 (.locking 0) :: steps 1 4 ++
    .begin 1 (.waking 1 .one) :: steps 1 4 ++ steps 0 6) (by decide +kernel)

theorem isOn_contended : contended.IsOn .fallback := isOn_ofList _ (by decide +kernel)

theorem withinLimit_contended (c : CondRef) : contended.WithinLimit c := by
  refine withinLimit_of_threads (fun i => ?_) c
  have hthreads : (contended.state i).store.nextThread ≤ 2 := by
    refine forall_state_ofList (P := fun m => m.store.nextThread ≤ 2) _ ?_ i
    decide +kernel
  have hlimit : 2 + 1 < Fallback.sleepersLimit := by decide
  exact Nat.lt_of_le_of_lt (Nat.add_le_add_right hthreads 1) hlimit

theorem oneMutex_contended : contended.OneMutex := by
  intro i
  refine (contended.state_sound i).oneMutex_of_born ?_
  refine forall_state_ofList (P := fun m => ∀ t < m.store.nextThread, ∀ u < m.store.nextThread,
    ∀ w ∈ m.pends t, ∀ w' ∈ m.pends u, w.1 = w'.1 → w.2 = w'.2) _ ?_ i
  decide +kernel

/-- Thread 0 wants a mutex that its client in thread 1 does not give back. -/
theorem halted_contended : (contended.state 38).Halted := by
  intro t choice hcalling
  have hthreads : (contended.state 38).store.nextThread = 2 := by decide +kernel
  have hclient : (contended.state 38).calling 1 = false := by decide +kernel
  have hwanted : (contended.state 38).wanted 0 = some 0 := by decide +kernel
  have hlock : (contended.state 38).store.lock 0 = some ⟨some 1, ⟨2⟩⟩ := by decide +kernel
  generalize contended.state 38 = m, contended.state_sound 38 = hsound at *
  match t with
  | 0 => exact Machine.advance_of_wanted hwanted hlock rfl choice
  | 1 => cases hclient.symm.trans hcalling
  | t + 2 =>
    have hunborn := hsound.unborn (t + 2) (hthreads ▸ Nat.le_add_left 2 t)
    rw [Machine.calling, Machine.call?, hunborn] at hcalling
    cases hcalling

/-- In the run on the platform's backend thread 0 is stopped by the same mutex. -/
theorem refines_native_contended :
    contended.IsOn .fallback ∧ (∀ c, contended.WithinLimit c) ∧ contended.OneMutex ∧
      (contended.state 38).Halted ∧
      ∃ (r' : Run) (k : Nat), r'.IsOn .native ∧ r'.trace k = contended.trace 38 ∧
        (r'.state k).obstacle 0 = some (.mutex 0) := by
  refine ⟨isOn_contended, withinLimit_contended, oneMutex_contended, halted_contended, ?_⟩
  obtain ⟨r', k, hon, htrace, hhalts⟩ :=
    refines_native isOn_contended withinLimit_contended oneMutex_contended 38
  refine ⟨r', k, hon, htrace, ?_⟩
  rw [(hhalts halted_contended).obstacle]
  decide +kernel

end Run

end Interlock
