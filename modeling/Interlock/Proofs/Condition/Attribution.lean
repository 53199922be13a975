import Interlock.Proofs.Condition.History

/-!
# No spurious, stale or double wakeup

Every wait that returns woken was woken by one signal or broadcast, which published its mode while
the wait was registered.

  * `Stage.event?`: the event that a sleeper may be woken by;
  * `Run.Quiet`: the moves in which nobody registers, publishes, or leaves with a signal;
  * `Run.published_since`: an event that may wake was published, and all has been quiet since;
  * `Run.wakeups_attributed`: the signal or broadcast behind every wait that returns woken.
-/

namespace Interlock

/-! ## From the event back to its publication

The stages between a publication and the departure of the sleeper that it wakes all name its event
(`event?`), and they are entered by a publication only. So the last publication before a departure
is its cause, and since nobody registers meanwhile, the sleeper was registered at that moment. -/

/-- The event that a sleeper may have been woken by, or may yet be. -/
def Stage.event? : Stage → Option WakeEvent
  | announced e _ _ | raised e _ => some e
  | consumed _ => some .one
  | _ => none

/-- An event that may wake has been published. -/
theorem Stage.Shift.event {st st' : Stage} {t : Tid} {role : Place.Role} {e : WakeEvent}
    (h : st.Shift t role st') (he : st'.event? = some e) :
    st.event? = some e ∨ st = .entering t ∧ role = .raises e := by
  cases h <;> first | exact .inl he | cases he
  exact .inr ⟨rfl, rfl⟩

namespace Run

variable {r : Run} {c : CondRef} {t u : Tid} {i : Nat} {e : WakeEvent} {st st' : Stage}

/-- In move `i` nobody registers, nobody publishes with sleepers registered, and no sleeper that a
signal woke deregisters. -/
structure Quiet (r : Run) (c : CondRef) (i : Nat) : Prop where
  registers : ∀ t, ¬ r.Registers c t i
  publishes : ∀ e t, ¬ r.Publishes c e t i
  departs : ∀ t, ¬ r.Departs c t (some .one) i

/-- Nothing of that happens while an event may wake. -/
theorem quiet_of_event (hlimit : r.WithinLimit c) (hst : r.AtStage c st i)
    (hst' : r.AtStage c st' (i + 1)) (he : st.event? ≠ none) (he' : st'.event? ≠ none) :
    r.Quiet c i where
  registers t ht := by
    rw [hst.of_registers ht] at he
    exact he rfl
  publishes e t ht := by
    rw [hst.of_publishes ht] at he
    exact he rfl
  departs t ht := by
    obtain ⟨st₁, st₁', hshifts⟩ := shifts_of_ne hlimit ht.ne
    obtain ⟨f, f', -, hturn⟩ := hshifts.turn
    obtain ⟨l, d, hp, hp'⟩ := ht
    rw [hp] at hturn
    -- it leaves the gate to be opened, and then no event may wake
    generalize hnext : r.place c t (i + 1) = p' at hturn hp'
    cases hturn with
    | idle => exact hp' rfl
    | departOne =>
      rw [(hst'.post hnext).allows] at he'
      exact he' rfl

/-- An event that may wake was published some time ago, and all has been quiet since. -/
theorem published_since (hlimit : r.WithinLimit c) (i : Nat) {f : Fallback}
    (hcond : (r.state i).store.conds.get c = .fallback f) :
    ∃ st, r.AtStage c st i ∧ ∀ e, st.event? = some e →
      ∃ p < i, ∃ s, r.Publishes c e s p ∧ ∀ j, p < j → j < i → r.Quiet c j := by
  -- by induction on the moves: an event that may wake keeps its publication, and a new one is
  -- published just now
  induction i generalizing f with
  | zero => cases hcond
  | succ i ih =>
    cases r.state_event hlimit i with
    | @turn t f₀ f' hcond₀ hcond' hturn hmover hothers =>
      obtain ⟨st, ⟨f₁, hcond₁, hcycle⟩, hpublished⟩ := ih hcond₀
      obtain rfl : f₀ = f₁ := Condition.fallback.inj (hcond₀.symm.trans hcond₁)
      obtain ⟨st', hshift, hcycle'⟩ := Machine.Event.turn_cycle (r.state_sound (i + 1)) hcycle hturn
        hmover hothers (hlimit i)
      have hst : r.AtStage c st i := ⟨f₀, hcond₀, hcycle⟩
      have hst' : r.AtStage c st' (i + 1) := ⟨f', hcond', hcycle'⟩
      refine ⟨st', hst', ?_⟩
      intro e he
      rcases hshift.event he with hbefore | ⟨rfl, hrole⟩
      · obtain ⟨p, hp, s, hpublishes, hquiet⟩ := hpublished e hbefore
        refine ⟨p, by omega, s, hpublishes, ?_⟩
        intro j hpj hj
        rcases Nat.lt_or_eq_of_le (Nat.le_of_lt_succ hj) with hj | rfl
        · exact hquiet j hpj hj
        · exact quiet_of_event hlimit hst hst' (by simp [hbefore]) (by simp [he])
      · -- thread `t` has just published it
        have hp' := Place.of_raises hrole
        rw [hp'] at hturn
        generalize hp : (r.state i).place c t = p at hturn
        cases hturn with
        | idle =>
          obtain ⟨last, hlast⟩ := (hst.post hp).allows
          cases hlast
        | publish => exact ⟨i, by omega, t, ⟨hp, hp'⟩, fun j hij hj => by omega⟩
    | reset hplace hplace' hcond' =>
      obtain rfl := hcond' f hcond
      exact ⟨.calm, ⟨_, hcond, .of_new hplace' fun _ => mem_registered⟩, fun e he => by cases he⟩

/-! ## The cause of a wakeup

The cause is a function of the move in which a wait returns, not of the thread and its history,
since only one wait returns in a move. That it is injective on signals rests on `Quiet`: after a
signal has been published no second sleeper leaves with it before the next publication. -/

/-- Move `p` publishes event `e` with thread `t` registered, and is the last one that does so
before the thread, woken by the event, deregisters in move `d`. -/
structure Caused (r : Run) (c : CondRef) (e : WakeEvent) (t : Tid) (p d : Nat) : Prop where
  before : p < d
  publishes : ∃ s, r.Publishes c e s p
  quiet : ∀ j, p < j → j < d → r.Quiet c j

/-- Whoever deregisters woken was woken by what some thread has published. -/
theorem caused_of_departs (hlimit : r.WithinLimit c) (h : r.Departs c t (some e) i) :
    ∃ p, r.Caused c e t p i := by
  obtain ⟨st₁, st₁', hshifts⟩ := shifts_of_ne hlimit h.ne
  obtain ⟨f, f', hcond, -⟩ := hshifts.turn
  obtain ⟨st, hst, hpublished⟩ := published_since hlimit i hcond
  obtain ⟨l, d, hp, -⟩ := h
  -- a sleeper that has been woken tells the stage
  have he : st.event? = some e := by
    cases e with
    | one =>
      rw [(hst.post hp).allows]
      rfl
    | all =>
      obtain ⟨last, rfl⟩ := (hst.post hp).allows
      rfl
  obtain ⟨p, hpi, s, hpublishes, hquiet⟩ := hpublished e he
  exact ⟨p, hpi, ⟨s, hpublishes⟩, hquiet⟩

/-- The sleeper had registered when its wakeup was published, and was so still. -/
theorem Caused.registered {p a d z : Nat} {w : Option WakeEvent} (h : r.Caused c e t p d)
    (hlimit : r.WithinLimit c) (hwaited : r.Waited c t a d z w) :
    a < p ∧ t ∈ r.registered c p := by
  obtain ⟨s, hpublishes⟩ := h.publishes
  have hap : a < p := by
    rcases Nat.lt_trichotomy a p with hap | rfl | hpa
    · exact hap
    · -- one thread moves at a time
      obtain rfl := mover_unique hlimit hpublishes.ne hwaited.registers.ne
      obtain ⟨l, timeout, hp, -⟩ := hwaited.registers
      cases hp.symm.trans hpublishes.1
    · exact absurd hwaited.registers ((h.quiet a hpa hwaited.before.1).registers t)
  exact ⟨hap, mem_registered.2 (hwaited.sleeps p hap (Nat.le_of_lt h.before))⟩

/-- A signal is the cause of one departure. -/
theorem Caused.unique {p d d' : Nat} (hlimit : r.WithinLimit c) (h : r.Caused c .one t p d)
    (h' : r.Caused c .one u p d') (hd : r.Departs c t (some .one) d)
    (hd' : r.Departs c u (some .one) d') : d = d' ∧ t = u := by
  have hsame : d = d' := by
    rcases Nat.lt_trichotomy d d' with hlt | heq | hlt
    · exact absurd hd ((h'.quiet d h.before hlt).departs t)
    · exact heq
    · exact absurd hd' ((h.quiet d' h'.before hlt).departs u)
  subst hsame
  exact ⟨rfl, mover_unique hlimit hd'.ne hd.ne⟩

/-- In a move only one event is published. -/
theorem Publishes.unique {e' : WakeEvent} {s s' : Tid} (hlimit : r.WithinLimit c)
    (h : r.Publishes c e s i) (h' : r.Publishes c e' s' i) : e = e' := by
  obtain rfl := mover_unique hlimit h.ne h'.ne
  have hplace := h.1.symm.trans h'.1
  cases hplace
  rfl

/-- A wait registers once and deregisters once. -/
theorem Waited.unique {a a' d d' z : Nat} {w w' : Option WakeEvent} (h : r.Waited c t a d z w)
    (h' : r.Waited c t a' d' z w') : a = a' ∧ d = d' ∧ w = w' := by
  -- a second registration would fall into a time in which the thread is registered already
  have hdeparts {a a' d d' : Nat} {w w' : Option WakeEvent} (h : r.Waited c t a d z w)
      (h' : r.Waited c t a' d' z w') : ¬ d < d' := by
    intro hlt
    have hdeparted := h.leaves d' hlt (Nat.le_of_lt h'.before.2)
    obtain ⟨l, timeout, hp, -⟩ := h'.departs
    rw [hp] at hdeparted
    exact hdeparted
  obtain rfl : d = d' :=
    Nat.le_antisymm (Nat.not_lt.1 (hdeparts h' h)) (Nat.not_lt.1 (hdeparts h h'))
  have hregisters {a a' : Nat} {w w' : Option WakeEvent} (h : r.Waited c t a d z w)
      (h' : r.Waited c t a' d z w') : ¬ a < a' := by
    intro hlt
    have hsleeps := h.sleeps a' hlt (Nat.le_of_lt h'.before.1)
    obtain ⟨l, timeout, hp, -⟩ := h'.registers
    rw [hp] at hsleeps
    cases hsleeps
  have hsame : a = a' :=
    Nat.le_antisymm (Nat.not_lt.1 (hregisters h' h)) (Nat.not_lt.1 (hregisters h h'))
  refine ⟨hsame, rfl, ?_⟩
  obtain ⟨l, timeout, hp, -⟩ := h.departs
  obtain ⟨l', timeout', hp', -⟩ := h'.departs
  rw [hp] at hp'
  cases hp'
  rfl

/-- Two waits that deregister in the same move return in the same move. -/
theorem Waited.end_unique {a a' d z z' : Nat} {w w' : Option WakeEvent} {woken woken' : Bool}
    (h : r.Waited c t a d z w) (h' : r.Waited c t a' d z' w') (hreturns : r.Returns c t woken z)
    (hreturns' : r.Returns c t woken' z') : z = z' := by
  have hends {a a' z z' : Nat} {w w' : Option WakeEvent} {woken : Bool}
      (h : r.Waited c t a d z w) (h' : r.Waited c t a' d z' w')
      (hreturns : r.Returns c t woken z) : ¬ z < z' := by
    intro hlt
    have hdeparted := h'.leaves (z + 1) (Nat.lt_succ_of_lt h.before.2) hlt
    rw [hreturns.outside] at hdeparted
    exact hdeparted
  exact Nat.le_antisymm (Nat.not_lt.1 (hends h' h hreturns')) (Nat.not_lt.1 (hends h h' hreturns))

/-- Every wait that returns woken has its cause. -/
theorem exists_cause (hlimit : r.WithinLimit c) (z : Nat) :
    ∃ p, ∀ t a d w, r.Returns c t true z → r.Waited c t a d z w →
      ∃ e, w = some e ∧ r.Caused c e t p d := by
  by_cases hreturns : ∃ t, r.Returns c t true z
  · obtain ⟨t, hreturns⟩ := hreturns
    obtain ⟨a, d, w, hwaited, hw⟩ := waited_of_returns hlimit hreturns
    obtain ⟨e, rfl⟩ := Option.isSome_iff_exists.1 hw
    obtain ⟨p, hcaused⟩ := caused_of_departs hlimit hwaited.departs
    refine ⟨p, ?_⟩
    intro t' a' d' w' hreturns' hwaited'
    obtain ⟨choice, l, timeout, phase, hmove, -⟩ := hreturns
    obtain ⟨choice', l', timeout', phase', hmove', -⟩ := hreturns'
    rw [hmove] at hmove'
    cases hmove'
    obtain ⟨rfl, rfl, rfl⟩ := hwaited.unique hwaited'
    exact ⟨e, rfl, hcaused⟩
  · refine ⟨0, ?_⟩
    intro t a d w hreturns' hwaited
    exact absurd ⟨t, hreturns'⟩ hreturns

/-- Every wait that returns woken, in some move `z`, is attributed to a signal or a broadcast, which
published its mode in move `cause z`. -/
structure Attribution (r : Run) (c : CondRef) (cause : Nat → Nat) : Prop where
  /-- Every wait that returns has registered and deregistered. -/
  waited : ∀ t z woken, r.Returns c t woken z →
    ∃ a d w, r.Waited c t a d z w ∧ w.isSome = woken
  /-- The mode was published while the wait was registered. -/
  published : ∀ t a d z w, r.Waited c t a d z w → r.Returns c t true z →
    ∃ e s, w = some e ∧ r.Publishes c e s (cause z) ∧ a < cause z ∧ cause z < d ∧
      t ∈ r.registered c (cause z)
  /-- No two waits are attributed to the same signal. -/
  single : ∀ t t' z z' s, r.Returns c t true z → r.Returns c t' true z' →
    r.Publishes c .one s (cause z) → cause z = cause z' → t = t' ∧ z = z'
  /-- A signal or a broadcast that finds nobody wakes nobody. -/
  alone : ∀ e s p, r.PublishesAlone c e s p → ∀ t z, r.Returns c t true z → cause z ≠ p
  /-- Whoever registers after the publication is not woken by it. -/
  late : ∀ t a d z w p, r.Waited c t a d z w → r.Returns c t true z → p ≤ a → cause z ≠ p
  /-- A wait during which nobody publishes times out. -/
  silent : ∀ t a d z w woken, r.Waited c t a d z w → r.Returns c t woken z →
    (∀ p, a < p → p < d → ∀ e s, ¬ r.Publishes c e s p) → woken = false
  /-- A wait that returns unwoken is a timed one. -/
  timed : ∀ t z, r.Returns c t false z →
    ∃ l timeout p, r.place c t z = .waiting l (some timeout) p

/-- In every run within the limit the waits that return woken can be attributed to the signals and
broadcasts. -/
theorem wakeups_attributed (hlimit : r.WithinLimit c) : ∃ cause, r.Attribution c cause := by
  choose cause hcause using exists_cause (r := r) hlimit
  have hpublished (t : Tid) (a d z : Nat) (w : Option WakeEvent) (hwaited : r.Waited c t a d z w)
      (hreturns : r.Returns c t true z) : ∃ e s, w = some e ∧ r.Publishes c e s (cause z) ∧
        a < cause z ∧ cause z < d ∧ t ∈ r.registered c (cause z) := by
    obtain ⟨e, rfl, hcaused⟩ := hcause z t a d w hreturns hwaited
    obtain ⟨s, hpublishes⟩ := hcaused.publishes
    obtain ⟨hbefore, hregistered⟩ := hcaused.registered hlimit hwaited
    exact ⟨e, s, rfl, hpublishes, hbefore, hcaused.before, hregistered⟩
  refine ⟨cause, fun t z woken => waited_of_returns hlimit, hpublished, ?single, ?alone, ?late,
    ?silent, fun t z => timed_of_returns hlimit⟩
  case single =>
    intro t t' z z' s hreturns hreturns' hsignal hsame
    obtain ⟨a, d, w, hwaited, -⟩ := waited_of_returns hlimit hreturns
    obtain ⟨a', d', w', hwaited', -⟩ := waited_of_returns hlimit hreturns'
    obtain ⟨e, rfl, hcaused⟩ := hcause z t a d w hreturns hwaited
    obtain ⟨e', rfl, hcaused'⟩ := hcause z' t' a' d' w' hreturns' hwaited'
    -- the event of one signal is consumed in one departure
    rw [← hsame] at hcaused'
    obtain ⟨s₁, hpublishes⟩ := hcaused.publishes
    obtain ⟨s₂, hpublishes'⟩ := hcaused'.publishes
    obtain rfl := hsignal.unique hlimit hpublishes
    obtain rfl := hsignal.unique hlimit hpublishes'
    obtain ⟨rfl, rfl⟩ := hcaused.unique hlimit hcaused' hwaited.departs hwaited'.departs
    exact ⟨rfl, hwaited.end_unique hwaited' hreturns hreturns'⟩
  case alone =>
    rintro e s p halone t z hreturns rfl
    obtain ⟨a, d, w, hwaited, -⟩ := waited_of_returns hlimit hreturns
    obtain ⟨e', s', -, -, -, -, hregistered⟩ := hpublished t a d z w hwaited hreturns
    rw [halone.empty hlimit] at hregistered
    cases hregistered
  case late =>
    rintro t a d z w p hwaited hreturns hpa rfl
    obtain ⟨e, s, -, -, hbefore, -⟩ := hpublished t a d z w hwaited hreturns
    omega
  case silent =>
    intro t a d z w woken hwaited hreturns hsilent
    cases woken with
    | false => rfl
    | true =>
      obtain ⟨e, s, -, hpublishes, hbefore, hafter, -⟩ := hpublished t a d z w hwaited hreturns
      exact absurd hpublishes (hsilent _ hbefore hafter e s)

/-- Thread 0 sleeps, thread 1 signals, and thread 0 returns in move 33. -/
def woken : Run :=
  ofList (prelude ++ sleeping none ++ .begin 1 (.waking 1 .one) :: steps 1 4 ++ steps 0 7)
    (by decide +kernel)

/-- There is a signal to which its return is attributed. -/
theorem wakeups_attributed_woken :
    woken.WithinLimit 1 ∧ woken.Returns 1 0 true 33 ∧
      ∃ e s p, woken.Publishes 1 e s p ∧ p < 33 := by
  have hlimit : woken.WithinLimit 1 := withinLimit_ofList _ (by decide +kernel)
  have hreturns : woken.Returns 1 0 true 33 :=
    ⟨⟨0, false⟩, 0, none, .locking (.claim ⟨1⟩) (some .one), rfl, by decide +kernel,
      by decide +kernel⟩
  refine ⟨hlimit, hreturns, ?_⟩
  obtain ⟨cause, hcause⟩ := wakeups_attributed hlimit
  obtain ⟨a, d, w, hwaited, -⟩ := hcause.waited 0 33 true hreturns
  obtain ⟨e, s, -, hpublishes, -, hbefore, -⟩ := hcause.published 0 a d 33 w hwaited hreturns
  exact ⟨e, s, cause 33, hpublishes, hbefore.trans hwaited.before.2⟩

end Run

end Interlock
