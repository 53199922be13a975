import Interlock.Proofs.Condition.Cycle
import Mathlib.Data.Finset.Range

/-!
# A portable condition variable is consistent

In every run, as long as a thread that registers finds room in the word, a portable condition
variable is at some stage of its cycle.

  * `Machine.registered`: the threads that have registered and not deregistered;
  * `Run.WithinLimit`: nobody registers beyond what the word can count;
  * `Machine.Orderly`: the invariant, and `Machine.Orderly.event`: what a move is for it;
  * `Run.state_orderly`: it holds in every run within the limit;
  * `Run.inside_consistent`: no internal check fails, and the two fields of the word count what
    they are meant to count.
-/

namespace Interlock

/-! ## The invariant

The cycle of a wakeup is about one condition variable and places; here it becomes an invariant of
the machine. A move is one thread's turn at the condition variable (`Fallback.Turn`), or it makes
the condition variable new or takes it away while nobody is inside, or it leaves it alone. In the
first case `Cycle.turn` applies, and the one thing it asks for is room in the word for a thread that
registers; that is what `WithinLimit` provides, and nothing else is assumed. -/

namespace Machine

/-- The threads that have registered at condition variable `c` and not yet deregistered. -/
def registered (m : Machine) (c : CondRef) : Finset Tid :=
  (Finset.range m.store.nextThread).filter fun t => (m.place c t).isRegistered = true

/-- The registered threads are those whose places say so. -/
theorem mem_registered {m : Machine} (hsound : m.Sound) {c : CondRef} {t : Tid} :
    t ∈ m.registered c ↔ (m.place c t).isRegistered = true := by
  simp only [registered, Finset.mem_filter, Finset.mem_range, and_iff_right_iff_imp]
  intro ht
  apply Nat.lt_of_not_le
  intro hle
  rw [hsound.place_of_unborn hle] at ht
  cases ht

/-- Whether a move that registers a sleeper leaves the sleepers within what the word can count. -/
def hasRoom (c : CondRef) (m : Machine) : Move → Bool
  | .advance t _ =>
    match m.place c t with
    | .waiting _ _ .register => (m.registered c).card + 1 < Fallback.sleepersLimit
    | _ => true
  | _ => true

/-- Condition variable `c` is at some stage of its cycle if it is portable, and has nobody inside
if it is not. -/
structure Orderly (c : CondRef) (m : Machine) : Prop where
  portable : ∀ f, m.store.conds.get c = .fallback f →
    ∃ st, Cycle st f (m.place c) (m.registered c)
  other : (∀ f, m.store.conds.get c ≠ .fallback f) → ∀ t, m.place c t = .outside

/-- What a move is for condition variable `c`: one thread's turn, or it comes, goes, or stays
something else than a portable one, while everybody is outside. -/
inductive Event (c : CondRef) (m : Machine) (move : Move) (m' : Machine) : Prop
  | turn {t : Tid} {f f' : Fallback} (hcond : m.store.conds.get c = .fallback f)
    (hcond' : m'.store.conds.get c = .fallback f')
    (hturn : f.Turn (m.place c t) f' (m'.place c t))
    (hmover : m'.place c t = m.place c t ∨ ∃ choice, move = .advance t choice)
    (hothers : ∀ u, u ≠ t → m'.place c u = m.place c u)
  | reset (hplace : ∀ t, m.place c t = .outside) (hplace' : ∀ t, m'.place c t = .outside)
    (hcond' : ∀ f', m'.store.conds.get c = .fallback f' → f' = .new)

variable {m m' : Machine} {move : Move} {c : CondRef}

/-- No internal check fails in a move that has room. -/
theorem Orderly.not_fault (h : m.Orderly c) (hroom : m.hasRoom c move = true) {t : Tid}
    {choice : Choice} {f : Fallback} (hmove : move = .advance t choice)
    (hcond : m.store.conds.get c = .fallback f) : ¬ f.Fault (m.place c t) := by
  obtain ⟨st, hcycle⟩ := h.portable f hcond
  apply hcycle.not_fault
  intro l d hplace
  simpa [hmove, hasRoom, hplace] using hroom

/-- Every move is a turn or a reset, because no internal check fails. -/
theorem Orderly.event (h : m.Orderly c) (hchange : m.Change move m') (hsound : m.Sound)
    (hids : m.Identified) (hholds : ∀ l, m.Holds l) (hroom : m.hasRoom c move = true) :
    Event c m move m' := by
  obtain ⟨t, ⟨hturns, hmover⟩, hothers⟩ := hchange.turns hsound c (releases hids hholds)
    fun _ _ _ => h.not_fault hroom
  have hall (hplace : ∀ u, m.place c u = .outside) (ht : m'.place c t = .outside) (u : Tid) :
      m'.place c u = .outside := by
    by_cases hut : u = t
    · exact hut ▸ ht
    · rw [hothers u hut, hplace u]
  rcases hturns with hturn | ⟨hcond', ht, hplace⟩
  · generalize hcond : m.store.conds.get c = cond at hturn
    generalize hcond' : m'.store.conds.get c = cond' at hturn
    generalize hp : m.place c t = p at hturn
    generalize hp' : m'.place c t = p' at hturn
    cases hturn with
    | portable hturn => exact .turn hcond hcond' (hp.symm ▸ hp'.symm ▸ hturn) hmover hothers
    | other hother hother' hstay =>
      have hplace := h.other fun f => hcond ▸ hother f
      refine .reset hplace (hall hplace (hp'.trans (hstay (hp ▸ hplace t)))) ?_
      intro f' hf'
      exact absurd (hcond'.symm.trans hf') (hother' f')
    | @init backend =>
      -- nobody is inside before the initialization
      have hplace := h.other fun f => by simp [hcond]
      refine .reset hplace (hall hplace hp') ?_
      intro f' hf'
      cases backend <;> rw [hcond'] at hf' <;> cases hf'
      rfl
  · refine .reset hplace (hall hplace (ht.trans (hplace t))) ?_
    intro f' hf'
    rcases hcond' with hraw | ⟨backend, hnew⟩
    · rw [hraw] at hf'
      cases hf'
    · cases backend <;> rw [hnew] at hf' <;> cases hf'
      rfl

/-- A turn keeps the cycle going, if it has room. -/
theorem Event.turn_cycle {t : Tid} {f f' : Fallback} {st : Stage} (hsound' : m'.Sound)
    (hcycle : Cycle st f (m.place c) (m.registered c))
    (hturn : f.Turn (m.place c t) f' (m'.place c t))
    (hmover : m'.place c t = m.place c t ∨ ∃ choice, move = .advance t choice)
    (hothers : ∀ u, u ≠ t → m'.place c u = m.place c u) (hroom : m.hasRoom c move = true) :
    ∃ st', st.Shift t (m'.place c t).role st' ∧
      Cycle st' f' (m'.place c) (m'.registered c) := by
  refine hcycle.turn hturn hothers (fun _ => mem_registered hsound') ?_
  intro l d hplace hplace'
  rcases hmover with hsame | ⟨choice, rfl⟩
  · rw [hplace, hplace'] at hsame
    cases hsame
  · simpa [hasRoom, hplace] using hroom

theorem orderly_initial (c : CondRef) : initial.Orderly c where
  portable f hf := by cases hf
  other _ _ := rfl

/-- Either event keeps the condition variable in order. -/
theorem Event.orderly (h : Event c m move m') (horderly : m.Orderly c) (hsound' : m'.Sound)
    (hroom : m.hasRoom c move = true) : m'.Orderly c := by
  cases h with
  | turn hcond hcond' hturn hmover hothers =>
    refine ⟨?_, fun hother => absurd hcond' (hother _)⟩
    intro f' hf'
    rw [hcond'] at hf'
    cases hf'
    obtain ⟨st, hcycle⟩ := horderly.portable _ hcond
    obtain ⟨st', -, hcycle'⟩ := turn_cycle hsound' hcycle hturn hmover hothers hroom
    exact ⟨st', hcycle'⟩
  | reset hplace hplace' hcond' =>
    refine ⟨?_, fun _ => hplace'⟩
    intro f' hf'
    rw [hcond' f' hf']
    exact ⟨.calm, .of_new hplace' fun _ => mem_registered hsound'⟩

/-- No step of a thread inside fails. -/
theorem Orderly.advance_succeeds (h : m.Orderly c) (hids : m.Identified)
    (hholds : ∀ l, m.Holds l) {t : Tid} {choice : Choice}
    (hroom : m.hasRoom c (.advance t choice) = true) (hplace : m.place c t ≠ .outside) :
    (∀ why, (m.advance t choice).2 ≠ .panicked why) ∧ (m.advance t choice).2 ≠ .aborted := by
  obtain ⟨call, outer, hget, hsucceeds⟩ := step_succeeds choice (releases hids hholds t) hplace
    fun f hf => h.not_fault hroom rfl hf
  unfold advance
  rw [hget]
  -- the machine reports what the step of the innermost call did
  cases hstep : call.step t choice m.store <;> rw [hstep] at hsucceeds <;>
    simp only [hstep] <;> first | exact hsucceeds.elim | simp
  split <;> simp

end Machine

/-! ## Runs

The limit is a condition on the run, not on the state: only a thread that registers needs room, and
it needs it in the move in which it registers. -/

namespace Run

variable {r : Run} {c : CondRef}

/-- Every thread that registers at condition variable `c` finds room in the word: it is at most
the last one that the word can count. -/
def WithinLimit (r : Run) (c : CondRef) : Prop :=
  ∀ i, (r.state i).hasRoom c (r.move i) = true

/-- In every run within the limit a condition variable is in order at every moment. -/
theorem state_orderly (hlimit : r.WithinLimit c) (i : Nat) : (r.state i).Orderly c := by
  induction i with
  | zero => exact Machine.orderly_initial c
  | succ i ih =>
    exact (ih.event (r.state_change i) (r.state_sound i) (r.state_identified i)
      (fun l => r.state_holds l i) (hlimit i)).orderly ih (r.state_sound (i + 1)) (hlimit i)

theorem state_event (hlimit : r.WithinLimit c) (i : Nat) :
    Machine.Event c (r.state i) (r.move i) (r.state (i + 1)) :=
  (state_orderly hlimit i).event (r.state_change i) (r.state_sound i) (r.state_identified i)
    (fun l => r.state_holds l i) (hlimit i)

theorem withinLimit_ofList {moves : List Move} (h : feasible .initial moves = true)
    (hroom : along (Machine.hasRoom c) .initial moves = true) : (ofList moves h).WithinLimit c :=
  along_extend (fun _ => rfl) hroom

end Run

/-- What a departure takes off the word, it takes off each of the two fields. -/
theorem Cycle.fields_depart {st : Stage} {f : Fallback} {place : Tid → Place}
    {crowd : Finset Tid} (h : Cycle st f place crowd) {t : Tid} {l : LockRef}
    {d : Option Duration} {w : Option WakeEvent} (hplace : place t = .waiting l d (.depart w)) :
    (f.without w).sleepers + 1 = f.sleepers ∧
      (f.without w).mode + Fallback.modeBits (FallbackWaitPhase.share w) = f.mode := by
  have ht : t ∈ crowd := h.mem_of hplace rfl
  have hpost := h.post_of hplace
  rw [h.mode_eq, h.sleepers_eq, ← Finset.card_erase_add_one ht]
  rcases w with _ | _ | _
  · obtain ⟨hmode, hsleepers⟩ := h.fields_leave ht (w := none) (by simp)
    rw [hmode, hsleepers]
    exact ⟨rfl, rfl⟩
  · obtain rfl := hpost.allows
    obtain ⟨hmode, hsleepers⟩ := h.fields_leaveOne ht
    rw [hmode, hsleepers]
    exact ⟨rfl, rfl⟩
  · obtain ⟨hmode, hsleepers⟩ := h.fields_leave ht (w := some .all) (by decide)
    rw [hmode, hsleepers]
    exact ⟨rfl, rfl⟩

namespace Run

variable {r : Run} {c : CondRef}

/-- In every run within the limit, no step of a thread inside a portable condition variable fails,
the gate has at most its one permit, the lower field of the word is the number of threads that
have registered and not deregistered, and a departure never borrows from one field for the
other. -/
theorem inside_consistent (hlimit : r.WithinLimit c) (i : Nat) :
    (∀ t choice, (r.state i).hasRoom c (.advance t choice) = true →
      (r.state i).place c t ≠ .outside →
      (∀ why, ((r.state i).advance t choice).2 ≠ .panicked why) ∧
        ((r.state i).advance t choice).2 ≠ .aborted) ∧
    ∀ f, (r.state i).store.conds.get c = .fallback f →
      f.gate.available ≤ 1 ∧ f.gate.max = 1 ∧
      f.sleepers = ((r.state i).registered c).card ∧
      ∀ t l d w, (r.state i).place c t = .waiting l d (.depart w) →
        (f.without w).sleepers + 1 = f.sleepers ∧
        (f.without w).mode + Fallback.modeBits (FallbackWaitPhase.share w) = f.mode := by
  have horderly := state_orderly hlimit i
  constructor
  · intro t choice hroom hplace
    exact horderly.advance_succeeds (r.state_identified i) (fun l => r.state_holds l i) hroom hplace
  · intro f hf
    obtain ⟨st, hcycle⟩ := horderly.portable f hf
    refine ⟨?_, ?_, hcycle.sleepers_eq, fun t l d w hplace => hcycle.fields_depart hplace⟩ <;>
      rw [hcycle.gate] <;> cases st <;> simp [Stage.gate]

/-- A mutex, a portable condition variable with the handle 1, and a second thread. -/
def prelude : List Move :=
  [.create (.mutex true), .create .condition, .spawn 0, .begin 0 (.initCond 1 .fallback)]
    ++ steps 0 1

/-- Thread 0 locks the mutex and waits until it sleeps. -/
def sleeping (timeout : Option Duration) : List Move :=
  .begin 0 (.locking 0) :: steps 0 4 ++ .begin 0 (.waiting 1 0 timeout) :: steps 0 11

/-- A run in which thread 0 sleeps from move 22 on. -/
def asleep : Run := ofList (prelude ++ sleeping none) (by decide +kernel)

/-- There it is registered, and the lower field of the word counts it. -/
theorem inside_consistent_asleep :
    asleep.WithinLimit 1 ∧
      ∃ f, (asleep.state 22).store.conds.get 1 = .fallback f ∧ f.sleepers = 1 := by
  have hlimit : asleep.WithinLimit 1 := withinLimit_ofList _ (by decide +kernel)
  have hcond : (asleep.state 22).store.conds.get 1 = .fallback ⟨1, ⟨1, 1⟩, .clear⟩ := by
    decide +kernel
  refine ⟨hlimit, _, hcond, ?_⟩
  rw [((inside_consistent hlimit 22).2 _ hcond).2.2.1]
  decide +kernel

end Run

end Interlock
