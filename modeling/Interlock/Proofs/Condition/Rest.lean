import Interlock.Proofs.Condition.Gate

/-!
# A portable condition variable at rest

Each of the ways to leave a wait puts back another part of the state, and so does a wakeup that
finds nobody; nobody puts back all of it. Where nobody is on the way any more, still all of it has
been put back: a condition variable at rest is a new one, but for the threads that sleep in it.

  * `Fallback.Rests`: the places of a thread that is not on its way;
  * `Cycle.calm_of_rests`: the cycle is at its calm stage if nobody is on the way;
  * `Machine.AtRest`: what that says of the state and of its destructor;
  * `Run.condition_at_rest`: this holds in every run within the limit.
-/

namespace Interlock

/-- A thread at the place is outside, it sleeps with no event set, or it has deregistered and is
only after its mutex. -/
def Fallback.Rests (f : Fallback) : Place → Prop
  | .outside | .waiting _ _ (.locking _ _) => True
  | .waiting _ _ (.parked _) => f.events.take? = none
  | _ => False

/-- Whether a thread sleeps until it sees an event. -/
def Place.isParked : Place → Bool
  | waiting _ _ (.parked _) => true
  | _ => false

namespace Fallback.Rests

variable {f : Fallback} {p : Place}

theorem role (h : f.Rests p) : p.role = .common := by
  unfold Fallback.Rests at h
  split at h <;> first | rfl | exact h.elim

theorem registered_iff (h : f.Rests p) : p.isRegistered = true ↔ p.isParked = true := by
  unfold Fallback.Rests at h
  split at h <;> first | exact Iff.rfl | exact h.elim

theorem of_registered (h : f.Rests p) (hp : p.isRegistered = true) : f.events.take? = none := by
  unfold Fallback.Rests at h
  split at h <;> first | exact h | exact h.elim | cases hp

end Fallback.Rests

namespace Cycle

variable {st : Stage} {f : Fallback} {place : Tid → Place} {crowd : Finset Tid}

/-- While nobody is on the way nothing is in progress. -/
theorem calm_of_rests (h : Cycle st f place crowd) (hrests : ∀ t, f.Rests (place t)) :
    st = .calm := by
  by_contra hcalm
  obtain ⟨t, ⟨hrole, -⟩ | ⟨htake, ⟨e, hawaits⟩ | hregistered⟩⟩ := h.exists_part hcalm
  · exact hrole (hrests t).role
  · cases (hrests t).role.symm.trans hawaits
  · exact htake ((hrests t).of_registered hregistered)

/-- At the calm stage the word counts the sleepers, and nothing else. -/
theorem eq_of_calm (h : Cycle .calm f place crowd) :
    f = { Fallback.new with word := UInt32.ofNat crowd.card } := by
  have hword : f.word = UInt32.ofNat crowd.card := by
    rw [← UInt32.ofNat_toNat (x := f.word), h.word]
    simp [Stage.mode]
  obtain ⟨word, gate, events⟩ := f
  obtain rfl : gate = ⟨1, 1⟩ := h.gate
  obtain rfl : events = .clear := h.events
  exact congrArg (Fallback.mk · _ _) hword

/-- At the calm stage the destructor is content if the word counts nobody. -/
theorem isQuiescent_of_calm (h : Cycle .calm f place crowd) :
    f.isQuiescent = true ↔ crowd = ∅ := by
  have hword := h.word
  simp only [Stage.mode, Nat.zero_add] at hword
  simp only [Fallback.isQuiescent, h.gate, Stage.gate, Bool.and_eq_true, beq_iff_eq, and_true]
  rw [← Finset.card_eq_zero, ← hword, ← UInt32.toNat_inj]
  exact Iff.rfl

end Cycle

namespace Machine

/-- The threads that sleep in condition variable `c` until they see an event. -/
def parked (m : Machine) (c : CondRef) : Finset Tid :=
  (Finset.range m.store.nextThread).filter fun t => (m.place c t).isParked = true

/-- What holds of a portable condition variable `c` with state `f` while nobody is on the way. -/
structure AtRest (m : Machine) (c : CondRef) (f : Fallback) : Prop where
  mode : f.mode = 0
  gate : f.gate = ⟨1, 1⟩
  events : f.events = .clear
  sleepers : f.sleepers = (m.parked c).card
  /-- Whoever is registered sleeps. -/
  registered : m.registered c = m.parked c
  /-- Nothing tells a condition variable that nobody sleeps in from a new one. -/
  fresh : m.parked c = ∅ → f = .new
  /-- The destructor is content exactly if nobody is registered, and otherwise reports the state
  that it finds. -/
  content : m.registered c = ∅ → ∀ unwinding,
    m.store.destroyCond c unwinding = (m.store.setCond c .raw, none)
  reports : m.registered c ≠ ∅ → ∀ unwinding,
    m.store.destroyCond c unwinding =
      ((m.store.setCond c .raw).report (.violation (.conditionDropped f)),
        if unwinding then none else some (.violation (.conditionDropped f)))

end Machine

namespace Run

variable {r : Run} {c : CondRef} {f : Fallback}

/-- In every state of a run within the limit in which nobody is on the way at a portable condition
variable, nothing is published, its gate has its one permit, neither event is set, and the sleepers
that it counts are the threads that sleep in it. So once every wait, signal and broadcast has ended
it is as it was when it was new, and its destructor finds fault exactly if somebody is
registered. -/
theorem condition_at_rest (hlimit : r.WithinLimit c) (i : Nat)
    (hcond : (r.state i).store.conds.get c = .fallback f)
    (hrests : ∀ t, f.Rests ((r.state i).place c t)) : (r.state i).AtRest c f := by
  obtain ⟨st, hcycle⟩ := (state_orderly hlimit i).portable f hcond
  -- the cycle is calm, and all fields follow from that
  obtain rfl := hcycle.calm_of_rests hrests
  have hparked : (r.state i).registered c = (r.state i).parked c :=
    Finset.filter_congr fun t _ => (hrests t).registered_iff
  have hviolation : ((r.state i).store.conds.get c).dropViolation =
      if f.isQuiescent then none else some (.conditionDropped f) := by
    rw [hcond, Condition.dropViolation]
  constructor
  case mode => exact hcycle.mode_eq
  case gate => exact hcycle.gate
  case events => exact hcycle.events
  case sleepers => rw [← hparked, hcycle.sleepers_eq]
  case registered => exact hparked
  case fresh =>
    intro hempty
    rw [hcycle.eq_of_calm, hparked, hempty]
    rfl
  case content =>
    intro hempty unwinding
    rw [Store.destroyCond, hviolation, if_pos (hcycle.isQuiescent_of_calm.2 hempty)]
    rfl
  case reports =>
    intro hsome unwinding
    rw [Store.destroyCond, hviolation, if_neg (mt hcycle.isQuiescent_of_calm.1 hsome)]
    rfl

/-- Thread 0 sleeps, thread 1 signals, and thread 0 returns from its wait. -/
def rested : Run :=
  ofList (prelude ++ sleeping none ++ [.begin 1 (.waking 1 .one)] ++ steps 1 4 ++ steps 0 7)
    (by decide +kernel)

/-- While the thread sleeps the condition variable is at rest with one sleeper, and once the wait
has ended it is at rest and new. -/
theorem condition_at_rest_rested :
    rested.WithinLimit 1 ∧ (rested.state 22).parked 1 = {0} ∧
      (rested.state 22).AtRest 1 ⟨1, ⟨1, 1⟩, .clear⟩ ∧
      (rested.state 34).parked 1 = ∅ ∧ (rested.state 34).AtRest 1 .new := by
  have hlimit : rested.WithinLimit 1 := withinLimit_ofList _ (by decide +kernel)
  have hcond : (rested.state 22).store.conds.get 1 = .fallback ⟨1, ⟨1, 1⟩, .clear⟩ := by
    decide +kernel
  have hcond' : (rested.state 34).store.conds.get 1 = .fallback .new := by decide +kernel
  have hunborn {i : Nat} (hborn : (rested.state i).store.nextThread = 2) (t : Tid) :
      (rested.state i).place 1 (t + 2) = .outside :=
    (rested.state_sound i).place_of_unborn (hborn ▸ Nat.le_add_left 2 t)
  refine ⟨hlimit, by decide +kernel, ?_, by decide +kernel, ?_⟩
  · refine condition_at_rest hlimit 22 hcond fun t => ?_
    match t with
    | 0 =>
      rw [show (rested.state 22).place 1 0 = .waiting 0 none (.parked none) by decide +kernel]
      exact rfl
    | 1 =>
      rw [show (rested.state 22).place 1 1 = .outside by decide +kernel]
      exact trivial
    | t + 2 =>
      rw [hunborn (by decide +kernel)]
      exact trivial
  · refine condition_at_rest hlimit 34 hcond' fun t => ?_
    match t with
    | 0 =>
      rw [show (rested.state 34).place 1 0 = .outside by decide +kernel]
      exact trivial
    | 1 =>
      rw [show (rested.state 34).place 1 1 = .outside by decide +kernel]
      exact trivial
    | t + 2 =>
      rw [hunborn (by decide +kernel)]
      exact trivial

end Run

end Interlock
