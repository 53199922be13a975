import Interlock.Proofs.Condition.Gate
import Mathlib.Data.Nat.Find

/-!
# Waits and wakeups in time

What happens at a portable condition variable at which moment of a run, told by the places of the
threads before and after a move.

  * `Run.Registers`, `Run.Wakes`, `Run.Departs`, `Run.Returns`: the steps of a wait;
  * `Run.Publishes`, `Run.PublishesAlone`, `Run.Raises`: those of a signal or a broadcast, which
    publishes its mode with sleepers registered or without;
  * `Run.Absorbs`: a signal's event is consumed by the last sleeper, which has timed out;
  * `Run.Opens`: the gate is opened;
  * `Run.AtStage` and `Run.Shifts`: the stage before a move, and the move that shifts it;
  * `Run.Waited`: the moments of one whole wait, and `Run.waited_of_returns`: every wait that
    returns has them.
-/

namespace Interlock

/-! ## What a change of place tells

Events of a run are told by the places before and after a move, so each of them is the trace of one
turn or of a few. The lemmas here are those inversions of `Fallback.Turn`. -/

/-- What a step answers, if it is the last one. -/
def Progress.answer? {φ ρ : Type} : Progress φ ρ → Option ρ
  | done _ reply => some reply
  | _ => none

/-- A sleeper that `w` has woken, or nothing has, and that has deregistered. -/
def Place.Departed (w : Option WakeEvent) : Place → Prop
  | waiting _ _ (.await _) => w = none
  | waiting _ _ (.lower w') | waiting _ _ (.retract w') | waiting _ _ (.reopen w')
  | waiting _ _ (.locking _ w') => w = w'
  | _ => False

namespace Fallback.Turn

variable {f f' : Fallback} {p p' : Place}

/-- A sleeper comes to be registered by registering. -/
theorem of_registered (h : f.Turn p f' p') (hp' : p'.isRegistered = true) :
    p.isRegistered = true ∨
      ∃ l d, p = .waiting l d .register ∧ p' = .waiting l d .handBack := by
  cases h with
  | idle => exact .inl hp'
  | register => exact .inr ⟨_, _, rfl, rfl⟩
  | _ => first | exact .inl rfl | cases hp'

/-- It ceases to be by its departure. -/
theorem of_unregistered (h : f.Turn p f' p') (hp : p.isRegistered = true)
    (hp' : p'.isRegistered = false) : ∃ l d w, p = .waiting l d (.depart w) := by
  cases h with
  | idle => cases hp.symm.trans hp'
  | departOne | departTimed | departLast | departAll | departAllLast => exact ⟨_, _, _, rfl⟩
  | _ => first | (cases hp; done) | cases hp'

/-- A sleeper has departed because it just has, or was so before. -/
theorem of_departed (h : f.Turn p f' p') {w : Option WakeEvent} (hp' : p'.Departed w) :
    p.Departed w ∨
      ∃ l d, p = .waiting l d (.depart w) ∧ p' ≠ .waiting l d (.depart w) := by
  cases h <;> first
    | exact .inl hp'
    | exact hp'.elim
    | (cases hp'; exact .inr ⟨_, _, rfl, by simp⟩)

/-- A sleeper comes to be woken from its sleep. -/
theorem of_woken {l : LockRef} {d : Option Duration} {e : WakeEvent}
    (h : f.Turn p f' (.waiting l d (.depart (some e)))) :
    p = .waiting l d (.depart (some e)) ∨ ∃ deadline, p = .waiting l d (.parked deadline) := by
  cases h with
  | idle => exact .inl rfl
  | wake => exact .inr ⟨_, rfl⟩

/-- Whoever waits for an event after a timeout was the last to leave. -/
theorem of_await {l : LockRef} {d : Option Duration} {e : WakeEvent}
    (h : f.Turn p f' (.waiting l d (.await e))) :
    p = .waiting l d (.await e) ∨ p = .waiting l d (.depart none) := by
  cases h with
  | idle => exact .inl rfl
  | departLast => exact .inr rfl

end Fallback.Turn

namespace Run

/-- Where thread `t` is at condition variable `c` before move `i`. -/
def place (r : Run) (c : CondRef) (t : Tid) (i : Nat) : Place := (r.state i).place c t

def registered (r : Run) (c : CondRef) (i : Nat) : Finset Tid := (r.state i).registered c

section

variable (r : Run) (c : CondRef)

/-- Thread `t` registers in move `i`. -/
def Registers (t : Tid) (i : Nat) : Prop :=
  ∃ l d, r.place c t i = .waiting l d .register ∧ r.place c t (i + 1) = .waiting l d .handBack

/-- The event wait of thread `t` ends in move `i`, because of event `e`. -/
def Wakes (e : WakeEvent) (t : Tid) (i : Nat) : Prop :=
  ∃ l d deadline, r.place c t i = .waiting l d (.parked deadline) ∧
    r.place c t (i + 1) = .waiting l d (.depart (some e))

/-- Thread `t`, woken by `w` if by anything, deregisters in move `i`. -/
def Departs (t : Tid) (w : Option WakeEvent) (i : Nat) : Prop :=
  ∃ l d, r.place c t i = .waiting l d (.depart w) ∧
    r.place c t (i + 1) ≠ .waiting l d (.depart w)

/-- A wait of thread `t` returns in move `i` and says whether it was woken. -/
def Returns (t : Tid) (woken : Bool) (i : Nat) : Prop :=
  ∃ choice l timeout p, r.move i = .advance t choice ∧ r.place c t i = .waiting l timeout p ∧
    (p.step t c l timeout (r.state i).store).answer? = some woken

/-- Thread `s` publishes the mode of event `e` in move `i`, and somebody is registered. -/
def Publishes (e : WakeEvent) (s : Tid) (i : Nat) : Prop :=
  r.place c s i = .waking e .publish ∧ r.place c s (i + 1) = .waking e .raise

/-- The same, but nobody is registered. -/
def PublishesAlone (e : WakeEvent) (s : Tid) (i : Nat) : Prop :=
  r.place c s i = .waking e .publish ∧ r.place c s (i + 1) = .waking e .retract

/-- Thread `s` sets event `e` in move `i`. -/
def Raises (e : WakeEvent) (s : Tid) (i : Nat) : Prop :=
  r.place c s i = .waking e .raise ∧ r.place c s (i + 1) = .outside

instance (e : WakeEvent) (s : Tid) (i : Nat) : Decidable (r.Publishes c e s i) :=
  inferInstanceAs (Decidable (_ ∧ _))

instance (e : WakeEvent) (s : Tid) (i : Nat) : Decidable (r.Raises c e s i) :=
  inferInstanceAs (Decidable (_ ∧ _))

/-- Thread `t`, the last sleeper of a signal and timed out, consumes the event in move `i`. -/
def Absorbs (t : Tid) (i : Nat) : Prop :=
  ∃ l d, r.place c t i = .waiting l d (.await .one) ∧
    r.place c t (i + 1) = .waiting l d (.retract none)

/-- The permits of the gate before move `i`, if the condition variable is portable. -/
def permits (i : Nat) : Option Nat :=
  match (r.state i).store.conds.get c with
  | .fallback f => some f.gate.available
  | _ => none

/-- The gate is opened in move `i`. -/
def Opens (i : Nat) : Prop :=
  r.permits c i = some 0 ∧ r.permits c (i + 1) = some 1

instance (i : Nat) : Decidable (r.Opens c i) :=
  inferInstanceAs (Decidable (_ ∧ _))

/-- Before move `i` the condition variable is portable, and at stage `st` of its cycle. -/
def AtStage (st : Stage) (i : Nat) : Prop :=
  ∃ f, (r.state i).store.conds.get c = .fallback f ∧
    Cycle st f ((r.state i).place c) (r.registered c i)

/-- Move `i` is a turn of thread `t`, which shifts the stage from `st` to `st'`. -/
structure Shifts (t : Tid) (st st' : Stage) (i : Nat) : Prop where
  before : r.AtStage c st i
  after : r.AtStage c st' (i + 1)
  shift : st.Shift t (r.place c t (i + 1)).role st'
  turn : ∃ f f', (r.state i).store.conds.get c = .fallback f ∧
    f.Turn (r.place c t i) f' (r.place c t (i + 1))
  others : ∀ u, u ≠ t → r.place c u (i + 1) = r.place c u i

/-- One whole wait: thread `t` registers in move `a`, deregisters in move `d`, woken by `w` if by
anything, and returns in move `z`. -/
structure Waited (t : Tid) (a d z : Nat) (w : Option WakeEvent) : Prop where
  registers : r.Registers c t a
  sleeps : ∀ j, a < j → j ≤ d → (r.place c t j).isRegistered = true
  departs : r.Departs c t w d
  leaves : ∀ j, d < j → j ≤ z → (r.place c t j).Departed w
  before : a < d ∧ d < z

end

variable {r : Run} {c : CondRef} {t u : Tid} {i k : Nat} {e : WakeEvent} {st : Stage}

/-! ## One thread moves at a time

In a run within the limit the condition variable is at some stage as long as somebody is inside, and
a move is the turn of one thread, which shifts the stage. -/

/-- A thread whose place changes takes a turn, and the others stay where they are. -/
theorem shifts_of_ne (hlimit : r.WithinLimit c) (ht : r.place c t (i + 1) ≠ r.place c t i) :
    ∃ st st', r.Shifts c t st st' i := by
  have horderly := state_orderly hlimit i
  cases r.state_event hlimit i with
  | @turn u f f' hcond hcond' hturn hmover hothers =>
    by_cases htu : t = u
    · subst htu
      obtain ⟨st, hcycle⟩ := horderly.portable f hcond
      obtain ⟨st', hshift, hcycle'⟩ := Machine.Event.turn_cycle (r.state_sound (i + 1)) hcycle hturn
        hmover hothers (hlimit i)
      exact ⟨st, st', ⟨f, hcond, hcycle⟩, ⟨f', hcond', hcycle'⟩, hshift, ⟨f, f', hcond, hturn⟩,
        hothers⟩
    · exact absurd (hothers t htu) ht
  | reset hplace hplace' hcond' => exact absurd ((hplace' t).trans (hplace t).symm) ht

/-- In a move only one thread changes its place. -/
theorem mover_unique (hlimit : r.WithinLimit c) (ht : r.place c t (i + 1) ≠ r.place c t i)
    (hu : r.place c u (i + 1) ≠ r.place c u i) : u = t := by
  obtain ⟨st, st', hshifts⟩ := shifts_of_ne hlimit ht
  by_contra hut
  exact hu (hshifts.others u hut)

/-- Whoever is inside is so at some stage. -/
theorem exists_atStage (hlimit : r.WithinLimit c) (ht : r.place c t i ≠ .outside) :
    ∃ st, r.AtStage c st i := by
  have horderly := state_orderly hlimit i
  by_cases hportable : ∃ f, (r.state i).store.conds.get c = .fallback f
  · obtain ⟨f, hcond⟩ := hportable
    obtain ⟨st, hcycle⟩ := horderly.portable f hcond
    exact ⟨st, f, hcond, hcycle⟩
  · exact absurd (horderly.other (fun f hcond => hportable ⟨f, hcond⟩) t) ht

/-- At every stage but the calm one a move is a turn. -/
theorem AtStage.shifts (hlimit : r.WithinLimit c) (h : r.AtStage c st i) (hcalm : st ≠ .calm) :
    ∃ t st', r.Shifts c t st st' i := by
  obtain ⟨f, hcond, hcycle⟩ := h
  cases r.state_event hlimit i with
  | @turn t f₁ f' hcond₁ hcond' hturn hmover hothers =>
    obtain rfl : f = f₁ := Condition.fallback.inj (hcond.symm.trans hcond₁)
    obtain ⟨st', hshift, hcycle'⟩ := Machine.Event.turn_cycle (r.state_sound (i + 1)) hcycle hturn
      hmover hothers (hlimit i)
    exact ⟨t, st', ⟨f, hcond, hcycle⟩, ⟨f', hcond', hcycle'⟩, hshift, ⟨f, f', hcond, hturn⟩,
      hothers⟩
  | reset hplace hplace' hcond' =>
    obtain ⟨t, ht, -⟩ := hcycle.exists_not_stuck hcalm
    exact absurd (hplace t) ht

theorem Registers.ne (h : r.Registers c t i) : r.place c t (i + 1) ≠ r.place c t i := by
  obtain ⟨l, d, hp, hp'⟩ := h
  simp [hp, hp']

theorem Wakes.ne (h : r.Wakes c e t i) : r.place c t (i + 1) ≠ r.place c t i := by
  obtain ⟨l, d, deadline, hp, hp'⟩ := h
  simp [hp, hp']

theorem Departs.ne {w : Option WakeEvent} (h : r.Departs c t w i) :
    r.place c t (i + 1) ≠ r.place c t i := by
  obtain ⟨l, d, hp, hp'⟩ := h
  rwa [hp]

theorem Publishes.ne (h : r.Publishes c e t i) : r.place c t (i + 1) ≠ r.place c t i := by
  simp [h.1, h.2]

theorem PublishesAlone.ne (h : r.PublishesAlone c e t i) :
    r.place c t (i + 1) ≠ r.place c t i := by
  simp [h.1, h.2]

theorem mem_registered : t ∈ r.registered c i ↔ (r.place c t i).isRegistered = true :=
  Machine.mem_registered (r.state_sound i)

/-! ## What the stage says of a move

Given what a thread does in a move, the stage is known, and with it what the others may do. These
are the lemmas by which an event of the run rules out the others at the same time. -/

theorem AtStage.post (h : r.AtStage c st i) {p : Place} (hp : r.place c t i = p) :
    st.Post t p.role := by
  obtain ⟨f, -, hcycle⟩ := h
  exact hcycle.post_of hp

/-- The turn of a move, beside what the stage says of the condition variable. -/
theorem AtStage.turn (h : r.AtStage c st i) {st₁ st' : Stage} (hshifts : r.Shifts c t st₁ st' i) :
    ∃ f f', Cycle st f ((r.state i).place c) (r.registered c i) ∧
      f.Turn (r.place c t i) f' (r.place c t (i + 1)) := by
  obtain ⟨f, hcond, hcycle⟩ := h
  obtain ⟨f₁, f', hcond₁, hturn⟩ := hshifts.turn
  obtain rfl : f = f₁ := Condition.fallback.inj (hcond.symm.trans hcond₁)
  exact ⟨f, f', hcycle, hturn⟩

theorem AtStage.of_registers (h : r.AtStage c st i) (ht : r.Registers c t i) :
    st = .entering t := by
  obtain ⟨l, d, hp, -⟩ := ht
  exact (h.post hp).allows

theorem AtStage.of_publishes (h : r.AtStage c st i) (ht : r.Publishes c e t i) :
    st = .entering t :=
  (h.post ht.1).allows

/-- A sleeper is woken only by the event that is set. -/
theorem AtStage.of_wakes (hlimit : r.WithinLimit c) (h : r.AtStage c st i)
    (ht : r.Wakes c e t i) : st = .raised e none := by
  obtain ⟨st₁, st', hshifts⟩ := shifts_of_ne hlimit ht.ne
  obtain ⟨l, d, deadline, hp, hp'⟩ := ht
  obtain ⟨f, f', hcycle, hturn⟩ := h.turn hshifts
  rw [hp, hp'] at hturn
  cases hturn with
  | wake hevents => exact (hcycle.raised_of_take (hcycle.mem_of hp rfl) hevents).1

/-- Whoever waits for an event after a timeout is the last. -/
theorem AtStage.of_awaits (h : r.AtStage c st i) {l : LockRef} {d : Option Duration}
    (hp : r.place c t i = .waiting l d (.await e)) : r.registered c i = ∅ := by
  have hpost := h.post hp
  obtain ⟨f, -, hcycle⟩ := h
  apply Finset.not_nonempty_iff_eq_empty.1
  intro hne
  rcases hpost.allows with ⟨u, -, rfl⟩ | rfl
  · cases hcycle.last.2.2 hne
  · cases hcycle.last.2 hne

theorem AtStage.permits (h : r.AtStage c st i) : r.permits c i = some st.gate.available := by
  obtain ⟨f, hcond, hcycle⟩ := h
  rw [Run.permits, hcond, ← hcycle.gate]

theorem Opens.after (h : r.Opens c i) (hst : r.AtStage c st (i + 1)) : st = .calm := by
  have hopen := h.2
  rw [hst.permits] at hopen
  cases st <;> first | rfl | cases hopen

/-- A move that makes the stage calm opens the gate. -/
theorem opens_of_calm (hst : r.AtStage c st i) (hclosed : st ≠ .calm)
    (hst' : r.AtStage c .calm (i + 1)) : r.Opens c i := by
  refine ⟨?_, hst'.permits⟩
  rw [hst.permits]
  cases st <;> first | rfl | exact absurd rfl hclosed

/-- Who publishes finds somebody registered, or nobody. -/
theorem Publishes.nonempty (hlimit : r.WithinLimit c) (h : r.Publishes c e t i) :
    (r.registered c i).Nonempty := by
  obtain ⟨st, st', hshifts⟩ := shifts_of_ne hlimit h.ne
  obtain ⟨f, f', hcycle, hturn⟩ := hshifts.before.turn hshifts
  rw [h.1, h.2] at hturn
  cases hturn with
  | publish hmode hsleepers =>
    rw [hcycle.sleepers_eq] at hsleepers
    exact Finset.card_pos.1 hsleepers

/-- Who takes its wakeup back has found nobody. -/
theorem PublishesAlone.empty (hlimit : r.WithinLimit c) (h : r.PublishesAlone c e t i) :
    r.registered c i = ∅ := by
  obtain ⟨st, st', hshifts⟩ := shifts_of_ne hlimit h.ne
  obtain ⟨f, f', hcycle, hturn⟩ := hshifts.before.turn hshifts
  rw [h.1, h.2] at hturn
  cases hturn with
  | publishAlone hmode hsleepers =>
    rw [hcycle.sleepers_eq] at hsleepers
    exact Finset.card_eq_zero.1 hsleepers

/-! ## The moments of a wait

A wait that returns is followed back through its places: it has departed, so there was a departure;
before that it was registered, so there was a registration. Both are found by the same induction
(`exists_turn`), for two properties of a place. -/

/-- What holds now and did not at first has begun at some moment and lasted since. -/
theorem exists_since {A : Nat → Prop} (hfirst : ¬ A 0) (h : A i) :
    ∃ a < i, ¬ A a ∧ ∀ j, a < j → j ≤ i → A j := by
  induction i with
  | zero => exact absurd h hfirst
  | succ i ih =>
    by_cases hi : A i
    · obtain ⟨a, ha, hbegan, hlasts⟩ := ih hi
      refine ⟨a, by omega, hbegan, ?_⟩
      intro j haj hj
      rcases Nat.lt_or_eq_of_le hj with hj | rfl
      · exact hlasts j haj (by omega)
      · exact h
    · refine ⟨i, by omega, hi, ?_⟩
      intro j hij hj
      obtain rfl : j = i + 1 := by omega
      exact h

/-- What holds now and not later has lasted up to some moment. -/
theorem exists_until {A : Nat → Prop} (h : A i) (hik : i ≤ k) (hlast : ¬ A k) :
    ∃ w, i ≤ w ∧ w < k ∧ (∀ j, i ≤ j → j ≤ w → A j) ∧ ¬ A (w + 1) := by
  classical
  have hends : ∃ n, i ≤ n ∧ ¬ A n := ⟨k, hik, hlast⟩
  -- the first moment at which it does not hold, and the one before that
  obtain ⟨hin, hn⟩ := Nat.find_spec hends
  have hnk : Nat.find hends ≤ k := Nat.find_min' hends ⟨hik, hlast⟩
  have hlasts (j : Nat) (hij : i ≤ j) (hj : j < Nat.find hends) : A j := by
    by_contra hnot
    exact Nat.find_min hends hj ⟨hij, hnot⟩
  obtain ⟨w, hw⟩ : ∃ w, Nat.find hends = w + 1 := by
    apply Nat.exists_eq_succ_of_ne_zero
    intro hzero
    obtain rfl : i = 0 := by omega
    rw [hzero] at hn
    exact hn h
  rw [hw] at hin hn hnk hlasts
  refine ⟨w, ?_, by omega, fun j hij hj => hlasts j hij (by omega), hn⟩
  rcases Nat.lt_or_eq_of_le hin with hin | rfl
  · omega
  · exact absurd h hn

/-- What holds of the place of a thread, and not of one outside, has come with a turn of that thread
some time ago, and has lasted since. -/
theorem exists_turn (hlimit : r.WithinLimit c) {A : Place → Prop} (hout : ¬ A .outside)
    (h : A (r.place c t i)) :
    ∃ a < i, ∃ st st', r.Shifts c t st st' a ∧ ¬ A (r.place c t a) ∧ A (r.place c t (a + 1)) ∧
      ∀ j, a < j → j ≤ i → A (r.place c t j) := by
  obtain ⟨a, ha, hbefore, hlasts⟩ := exists_since (A := fun j => A (r.place c t j)) hout h
  have hafter := hlasts (a + 1) (Nat.lt_succ_self a) ha
  obtain ⟨st, st', hshifts⟩ := shifts_of_ne hlimit (i := a) fun hsame => hbefore (hsame ▸ hafter)
  exact ⟨a, ha, st, st', hshifts, hbefore, hafter, hlasts⟩

/-- Whoever is registered has registered some time ago, and stayed so. -/
theorem registers_of_registered (hlimit : r.WithinLimit c)
    (h : (r.place c t i).isRegistered = true) :
    ∃ a < i, r.Registers c t a ∧
      ∀ j, a < j → j ≤ i → (r.place c t j).isRegistered = true := by
  obtain ⟨a, ha, st, st', hshifts, hbefore, hafter, hlasts⟩ :=
    exists_turn hlimit (A := fun p => p.isRegistered = true) Bool.false_ne_true h
  obtain ⟨f, f', -, hturn⟩ := hshifts.turn
  rcases hturn.of_registered hafter with hregistered | hregisters
  · exact absurd hregistered hbefore
  · exact ⟨a, ha, hregisters, hlasts⟩

/-- Whoever has deregistered did so some time ago, and has not come back. -/
theorem departs_of_departed (hlimit : r.WithinLimit c) {w : Option WakeEvent}
    (h : (r.place c t i).Departed w) :
    ∃ d < i, r.Departs c t w d ∧ ∀ j, d < j → j ≤ i → (r.place c t j).Departed w := by
  obtain ⟨d, hd, st, st', hshifts, hbefore, hafter, hlasts⟩ :=
    exists_turn hlimit (A := fun p => p.Departed w) id h
  obtain ⟨f, f', -, hturn⟩ := hshifts.turn
  rcases hturn.of_departed hafter with hdeparted | hdeparts
  · exact absurd hdeparted hbefore
  · exact ⟨d, hd, hdeparts, hlasts⟩

/-- A wait returns from taking back the caller's mutex, and says what it was woken by. -/
theorem Returns.place {woken : Bool} (h : r.Returns c t woken i) :
    ∃ l d p w, r.place c t i = .waiting l d (.locking p w) ∧ w.isSome = woken := by
  obtain ⟨choice, l, timeout, p, -, hplace, hanswer⟩ := h
  cases p with
  | locking p w =>
    refine ⟨l, timeout, p, w, hplace, ?_⟩
    simp only [FallbackWaitPhase.step] at hanswer
    cases hp : p.step t l (r.state i).store <;> rw [hp] at hanswer <;> cases hanswer
    rfl
  | unlocking p =>
    simp only [FallbackWaitPhase.step] at hanswer
    cases hp : p.step t l (r.state i).store <;> rw [hp] at hanswer <;> cases hanswer
  | _ =>
    simp only [FallbackWaitPhase.step, Store.withFallback, Store.violate,
      FallbackWaitPhase.afterDeparture] at hanswer
    (repeat' split at hanswer) <;> cases hanswer

/-- A wait that has returned is outside. -/
theorem Returns.outside {woken : Bool} (h : r.Returns c t woken i) :
    r.place c t (i + 1) = .outside := by
  obtain ⟨choice, l, timeout, p, hmove, hplace, hanswer⟩ := h
  obtain ⟨s, hdone⟩ : ∃ s, p.step t c l timeout (r.state i).store = .done s woken := by
    cases hp : p.step t c l timeout (r.state i).store <;> rw [hp] at hanswer <;> cases hanswer
    exact ⟨_, rfl⟩
  have hstate := state_of_advance hmove
  rw [Run.place, hstate]
  rcases Machine.call?_of_waiting hplace with hcall | ⟨whole, start, hcall⟩
  · obtain ⟨outer, hget⟩ := List.head?_eq_some_iff.1 hcall
    have hover : ((r.state i).advance t choice).1 = ⟨s, (r.state i).calls.set t outer⟩ := by
      simp [Machine.advance, hget, Call.step, Call.lift, WaitPhase.step, hdone, Progress.within]
    rw [hover]
    -- whatever call comes next runs its client's code
    apply Machine.see_eq
    intro call hcall'
    apply Call.Calm.place (.body ?_) c
    rw [Machine.call?, Table.get_set_self] at hcall'
    exact (r.state_sound i).waiting t _ outer hget call (List.mem_of_head? hcall')
  · -- the loop goes on with the test of its condition
    obtain ⟨outer, hget⟩ := List.head?_eq_some_iff.1 hcall
    have hnext : ((r.state i).advance t choice).1 =
        ⟨s, (r.state i).calls.set t (.waitWhile c l whole (.test start) :: outer)⟩ := by
      simp [Machine.advance, hget, Call.step, Call.lift, WaitWhilePhase.step, WaitPhase.step, hdone,
        Progress.within, Call.child?, Machine.adopt]
    rw [hnext]
    refine (Machine.see_of_get (Table.get_set_self _ _ _)).trans ?_
    exact Call.Calm.place (.body rfl) c

/-- Every wait that returns has registered and deregistered before. -/
theorem waited_of_returns (hlimit : r.WithinLimit c) {woken : Bool}
    (h : r.Returns c t woken i) : ∃ a d w, r.Waited c t a d i w ∧ w.isSome = woken := by
  obtain ⟨l, timeout, p, w, hplace, hw⟩ := h.place
  have hdeparted : (r.place c t i).Departed w := by
    rw [hplace]
    rfl
  obtain ⟨d, hd, hdeparts, hleaves⟩ := departs_of_departed hlimit hdeparted
  have hregistered : (r.place c t d).isRegistered = true := by
    obtain ⟨l, timeout, hp, -⟩ := hdeparts
    rw [hp]
    rfl
  obtain ⟨a, ha, hregisters, hsleeps⟩ := registers_of_registered hlimit hregistered
  exact ⟨a, d, w, ⟨hregisters, hsleeps, hdeparts, hleaves, ha, hd⟩, hw⟩

/-- A wait that returns unwoken is a timed one. -/
theorem timed_of_returns (hlimit : r.WithinLimit c) (h : r.Returns c t false i) :
    ∃ l timeout p, r.place c t i = .waiting l (some timeout) p := by
  obtain ⟨l, d, p, w, hplace, hw⟩ := h.place
  obtain rfl : w = none := by simpa using hw
  obtain ⟨st, f, -, hcycle⟩ := exists_atStage hlimit (t := t) (i := i) (by simp [hplace])
  have htimely : (r.place c t i).Timely := hcycle.timely t
  rw [hplace] at htimely
  obtain ⟨timeout, rfl⟩ := Option.isSome_iff_exists.1 (htimely rfl)
  exact ⟨l, timeout, _, hplace⟩

end Run

end Interlock
