import Interlock.Proofs.Condition.History

/-!
# No wakeup is lost

A signal or a broadcast that finds sleepers registered publishes its mode, sets its event, and
leaves the gate closed; the sleepers open it again. `Run.Course` splits the time between by the
stages: first the event is announced, then it is raised, and then it is past.

  * `Run.hopeful`: the registered sleepers whose event wait has not timed out;
  * `Run.course_of_publishes`: the moments of a wakeup;
  * `Run.SignalServed`: a signal wakes exactly one hopeful sleeper, and if there is none the last
    sleeper consumes the event itself;
  * `Run.BroadcastServed`: a broadcast wakes every hopeful sleeper, and all sleepers leave;
  * `Run.wakeups_delivered`: that is so whenever the gate has been opened again.

Between the publication and the next opening of the gate nobody registers and nobody else publishes,
because the gate is closed. So the crowd of sleepers only becomes smaller, and who is woken is found
by following it through the stages of the cycle.
-/

namespace Interlock

/-- Whether a thread is a registered sleeper whose event wait has not ended in a timeout. -/
def Place.isHopeful : Place → Bool
  | waiting _ _ (.depart none) => false
  | p => p.isRegistered

namespace Fallback.Turn

variable {f f' : Fallback} {p p' : Place}

/-- A sleeper becomes hopeful by registering. -/
theorem of_hopeful (h : f.Turn p f' p') (hp' : p'.isHopeful = true) :
    p.isHopeful = true ∨ ∃ l d, p = .waiting l d .register ∧ p' = .waiting l d .handBack := by
  cases h with
  | idle => exact .inl hp'
  | register => exact .inr ⟨_, _, rfl, rfl⟩
  | _ => first | exact .inl rfl | cases hp'

/-- It ceases to be hopeful when its event wait times out while no event is set, or when it
deregisters woken. -/
theorem of_hopeless (h : f.Turn p f' p') (hp : p.isHopeful = true) (hp' : p'.isHopeful = false) :
    f.events.take? = none ∨ ∃ l d e, p = .waiting l d (.depart (some e)) := by
  cases h with
  | idle => cases hp.symm.trans hp'
  | expire hevents => exact .inl hevents
  | departOne | departAll | departAllLast => exact .inr ⟨_, _, _, rfl⟩
  | _ => first | (cases hp; done) | cases hp'

end Fallback.Turn

namespace Stage

/-- The stages after a wakeup's event has been consumed, or has been seen by all. -/
def IsPast : Stage → Prop
  | consumed _ | lowering _ | retracting _ _ | reopening _ => True
  | _ => False

theorem Shift.isPast {st st' : Stage} {t : Tid} {role : Place.Role} (h : st.Shift t role st')
    (hst : st.IsPast) : st'.IsPast ∨ st' = .calm := by
  cases h <;> first | exact .inl trivial | exact .inl hst | exact .inr rfl

theorem Shift.of_past {st : Stage} {t : Tid} {role : Place.Role} (h : st.Shift t role .calm)
    (hst : st.IsPast) : st = .reopening t := by
  cases h <;> first | rfl | exact hst.elim

theorem Shift.of_raised {st' : Stage} {e : WakeEvent} {last : Option Tid} {t : Tid}
    {role : Place.Role} (h : (raised e last).Shift t role st') :
    (∃ last, st' = raised e last) ∨ st'.IsPast := by
  cases h <;> first | exact .inl ⟨_, rfl⟩ | exact .inr trivial

end Stage

namespace Run

variable {r : Run} {c : CondRef} {s t u : Tid} {i j k p w : Nat} {e : WakeEvent}
  {st st' : Stage}

/-- The registered sleepers whose event wait has not ended in a timeout before move `i`. -/
def hopeful (r : Run) (c : CondRef) (i : Nat) : Finset Tid :=
  (r.registered c i).filter fun t => (r.place c t i).isHopeful = true

/-- The hopeful sleepers are those whose places say so. -/
theorem mem_hopeful : t ∈ r.hopeful c i ↔ (r.place c t i).isHopeful = true := by
  rw [hopeful, Finset.mem_filter, mem_registered, and_iff_right_iff_imp]
  intro ht
  generalize r.place c t i = p at ht
  unfold Place.isHopeful at ht
  split at ht
  · cases ht
  · exact ht

/-- The gate is opened in move `k`, for the first time after move `p`. -/
structure OpensNext (r : Run) (c : CondRef) (p k : Nat) : Prop where
  before : p < k
  opens : r.Opens c k
  first : ∀ i < k, p < i → ¬ r.Opens c i

/-! ## The course of a wakeup

Three inductions along the stages, all of them `stage_lasts`: the announcement lasts until the event
is set, the event is raised until it is consumed or reset, and what is left lasts until the gate is
opened. -/

/-- Stages of some kind last until a move ends them, if the gate is opened some time. -/
theorem stage_lasts (hlimit : r.WithinLimit c) {F : Stage → Prop} (hcalm : ¬ F .calm)
    (hst : r.AtStage c st i) (hF : F st) (hik : i ≤ k) (hopens : r.Opens c k) :
    ∃ w, i ≤ w ∧ w ≤ k ∧ (∀ n, i ≤ n → n ≤ w → ∃ st, r.AtStage c st n ∧ F st) ∧
      ∃ t st st', r.Shifts c t st st' w ∧ F st ∧ ¬ F st' := by
  have hlast : ¬ ∃ st, r.AtStage c st (k + 1) ∧ F st := by
    rintro ⟨st', hst', hF'⟩
    exact hcalm (hopens.after hst' ▸ hF')
  obtain ⟨w, hiw, hwk, hlasts, hends⟩ :=
    exists_until (A := fun n => ∃ st, r.AtStage c st n ∧ F st) ⟨st, hst, hF⟩ (Nat.le_succ_of_le hik)
      hlast
  obtain ⟨st₁, hst₁, hF₁⟩ := hlasts w hiw le_rfl
  obtain ⟨t, st', hshifts⟩ := hst₁.shifts hlimit fun heq => hcalm (heq ▸ hF₁)
  exact ⟨w, hiw, Nat.le_of_lt_succ hwk, hlasts, t, st₁, st', hshifts, hF₁,
    fun hF' => hends ⟨st', hshifts.after, hF'⟩⟩

/-- The moments of a wakeup by thread `s`: it publishes the mode of event `e` in move `p` and sets
the event in move `j`; move `w` is the last one at which the event is raised, and move `k` opens the
gate. -/
structure Course (r : Run) (c : CondRef) (e : WakeEvent) (s : Tid) (p j w k : Nat) : Prop where
  before : p < j ∧ j < w ∧ w < k
  publishes : r.Publishes c e s p
  raises : r.Raises c e s j
  announced : ∀ n, p < n → n ≤ j → ∃ last, r.AtStage c (.announced e s last) n
  raised : ∀ n, j < n → n ≤ w → ∃ last, r.AtStage c (.raised e last) n
  ends : ∃ t last st', r.Shifts c t (.raised e last) st' w ∧ st'.IsPast
  past : ∀ n, w < n → n ≤ k → ∃ st, r.AtStage c st n ∧ st.IsPast

/-- The move that ends the announcement sets the event. -/
theorem Shifts.raises {last : Option Tid} (h : r.Shifts c t (.announced e s last) st' i)
    (hst' : ∀ last, st' ≠ .announced e s last) :
    r.Raises c e s i ∧ ∃ last, st' = .raised e last := by
  obtain ⟨hst, hst₁, hshift, ⟨f, f', -, hturn⟩, -⟩ := h
  generalize hrole : (r.place c t (i + 1)).role = role at hshift
  cases hshift with
  | stay | leave => exact absurd rfl (hst' _)
  | raise hlast =>
    have hp : r.place c s i = .waking e .raise := by
      obtain ⟨f₁, -, hcycle⟩ := hst
      exact Place.of_raises ((if_pos rfl).mp (hcycle.posts s))
    rw [hp] at hturn
    generalize hp' : r.place c s (i + 1) = p' at hturn hrole
    cases hturn with
    | idle => cases hrole
    | raise => exact ⟨⟨hp, hp'⟩, _, rfl⟩

/-- Whoever publishes with sleepers registered announces the event. -/
theorem Publishes.announced (hlimit : r.WithinLimit c) (h : r.Publishes c e s i) :
    r.AtStage c (.announced e s none) (i + 1) := by
  obtain ⟨st, st', hshifts⟩ := shifts_of_ne hlimit h.ne
  obtain rfl := hshifts.before.of_publishes h
  have hshift := hshifts.shift
  rw [h.2] at hshift
  cases hshift with
  | stay hpost =>
    obtain ⟨last, hlast⟩ := hpost.allows
    cases hlast
  | publish => exact hshifts.after

/-- An event that is past remains so until the gate is opened. -/
theorem past_until_opens (hlimit : r.WithinLimit c) (hst : r.AtStage c st i) (hpast : st.IsPast)
    (hik : i ≤ k) (hopens : r.Opens c k) (hfirst : ∀ n < k, i ≤ n → ¬ r.Opens c n) :
    ∀ n, i ≤ n → n ≤ k → ∃ st, r.AtStage c st n ∧ st.IsPast := by
  obtain ⟨v, hiv, hvk, hall, t, st, st', hshifts, hpast', hends⟩ :=
    stage_lasts hlimit (F := Stage.IsPast) id hst hpast hik hopens
  obtain rfl : st' = .calm := (hshifts.shift.isPast hpast').resolve_left hends
  have hclosed : st ≠ .calm := by
    rintro rfl
    exact hpast'
  rcases Nat.lt_or_eq_of_le hvk with hvk | rfl
  · exact absurd (opens_of_calm hshifts.before hclosed hshifts.after) (hfirst v hvk hiv)
  · exact hall

/-- Every signal or broadcast that finds somebody takes this course until the gate is opened. -/
theorem course_of_publishes (hlimit : r.WithinLimit c) (h : r.Publishes c e s p)
    (hnext : r.OpensNext c p k) : ∃ j w, r.Course c e s p j w k := by
  obtain ⟨hpk, hopens, hfirst⟩ := hnext
  -- the event is announced until a move sets it
  obtain ⟨j, hpj, hjk, hall, t, st, st', hshifts, ⟨last, rfl⟩, hends⟩ :=
    stage_lasts hlimit (F := fun st => ∃ last, st = .announced e s last) (by simp)
      (h.announced hlimit) ⟨_, rfl⟩ hpk hopens
  obtain ⟨hraises, last', rfl⟩ := hshifts.raises fun last hlast => hends ⟨last, hlast⟩
  have hraised := hshifts.after
  have hjk : j < k := by
    rcases Nat.lt_or_eq_of_le hjk with hjk | rfl
    · exact hjk
    · cases hopens.after hraised
  -- it is raised until it is past
  obtain ⟨w, hjw, hwk, hall', t', st, st', hshifts', ⟨last, rfl⟩, hends'⟩ :=
    stage_lasts hlimit (F := fun st => ∃ last, st = .raised e last) (by simp) hraised ⟨_, rfl⟩ hjk
      hopens
  have hpast : st'.IsPast := hshifts'.shift.of_raised.resolve_left hends'
  have hwk : w < k := by
    rcases Nat.lt_or_eq_of_le hwk with hwk | rfl
    · exact hwk
    · rw [hopens.after hshifts'.after] at hpast
      exact hpast.elim
  have hall'' := past_until_opens hlimit hshifts'.after hpast hwk hopens
    fun n hnk hwn => hfirst n hnk (by omega)
  refine ⟨j, w, ⟨by omega, by omega, hwk⟩, h, hraises, ?_, ?_, ⟨t', last, st', hshifts', hpast⟩,
    hall''⟩
  · intro n hpn hnj
    obtain ⟨st, hst, last, rfl⟩ := hall n hpn hnj
    exact ⟨last, hst⟩
  · intro n hjn hnw
    obtain ⟨st, hst, last, rfl⟩ := hall' n hjn hnw
    exact ⟨last, hst⟩

/-! ## Who is registered, and who is hopeful

While a wakeup is under way the set of the registered sleepers only shrinks, since the gate is
closed to everybody else. The set of the hopeful ones shrinks for two reasons: a timeout, while no
event is set, and a departure of a woken sleeper. So from the moment the event is set no timeout
makes a sleeper hopeless. -/

/-- Whoever is about to deregister and later is not has done so. -/
theorem departs_of_passed {l : LockRef} {d : Option Duration} {w : Option WakeEvent} (hik : i ≤ k)
    (ht : r.place c t i = .waiting l d (.depart w))
    (ht' : r.place c t k ≠ .waiting l d (.depart w)) : ∃ n, i ≤ n ∧ n < k ∧ r.Departs c t w n := by
  obtain ⟨n, hin, hnk, hall, hends⟩ :=
    exists_until (A := fun n => r.place c t n = .waiting l d (.depart w)) ht hik ht'
  exact ⟨n, hin, hnk, l, d, hall n hin le_rfl, hends⟩

section

variable (hlimit : r.WithinLimit c)
include hlimit

/-- If nobody registers in a move, nobody is new among the sleepers. -/
theorem registered_succ_subset (h : ∀ t, ¬ r.Registers c t i) :
    r.registered c (i + 1) ⊆ r.registered c i := by
  intro t ht
  rw [mem_registered] at ht ⊢
  by_cases hsame : r.place c t (i + 1) = r.place c t i
  · exact hsame ▸ ht
  · obtain ⟨st, st', hshifts⟩ := shifts_of_ne hlimit hsame
    obtain ⟨f, f', -, hturn⟩ := hshifts.turn
    rcases hturn.of_registered ht with hregistered | hregisters
    · exact hregistered
    · exact absurd hregisters (h t)

/-- Nor among the hopeful ones. -/
theorem hopeful_succ_subset (h : ∀ t, ¬ r.Registers c t i) :
    r.hopeful c (i + 1) ⊆ r.hopeful c i := by
  intro t ht
  rw [mem_hopeful] at ht ⊢
  by_cases hsame : r.place c t (i + 1) = r.place c t i
  · exact hsame ▸ ht
  · obtain ⟨st, st', hshifts⟩ := shifts_of_ne hlimit hsame
    obtain ⟨f, f', -, hturn⟩ := hshifts.turn
    rcases hturn.of_hopeful ht with hhopeful | hregisters
    · exact hhopeful
    · exact absurd hregisters (h t)

/-- Setting the event makes nobody hopeless. -/
theorem hopeful_of_raises (h : r.Raises c e s i) : r.hopeful c (i + 1) = r.hopeful c i := by
  obtain ⟨st, st', hshifts⟩ := shifts_of_ne hlimit (t := s) (i := i) (by simp [h.1, h.2])
  ext t
  rw [mem_hopeful, mem_hopeful]
  by_cases hts : t = s
  · rw [hts, h.1, h.2]
    rfl
  · rw [hshifts.others t hts]

/-- Whoever was registered and is not any more has deregistered in between. -/
theorem departs_of_left (hik : i ≤ k) (ht : t ∈ r.registered c i) (ht' : t ∉ r.registered c k) :
    ∃ d w, i ≤ d ∧ d < k ∧ r.Departs c t w d := by
  obtain ⟨d, hid, hdk, hall, hends⟩ := exists_until (A := fun n => t ∈ r.registered c n) ht hik ht'
  have hd := mem_registered.1 (hall d hid le_rfl)
  have hd' : (r.place c t (d + 1)).isRegistered = false :=
    Bool.eq_false_iff.2 fun h => hends (mem_registered.2 h)
  obtain ⟨st, st', hshifts⟩ := shifts_of_ne hlimit (t := t) (i := d) fun hsame => by
    rw [hsame, hd] at hd'
    cases hd'
  obtain ⟨f, f', -, hturn⟩ := hshifts.turn
  obtain ⟨l, timeout, w, hp⟩ := hturn.of_unregistered hd hd'
  refine ⟨d, w, hid, hdk, l, timeout, hp, ?_⟩
  intro hp'
  rw [hp'] at hd'
  cases hd'

/-- Whoever is woken was woken some time ago, and has not deregistered since. -/
theorem wakes_of_woken {l : LockRef} {d : Option Duration}
    (h : r.place c t i = .waiting l d (.depart (some e))) :
    ∃ w < i, r.Wakes c e t w ∧
      ∀ n, w < n → n ≤ i → r.place c t n = .waiting l d (.depart (some e)) := by
  obtain ⟨w, hw, st, st', hshifts, hbefore, hafter, hlasts⟩ :=
    exists_turn hlimit (A := fun p => p = .waiting l d (.depart (some e))) (by simp) h
  obtain ⟨f, f', -, hturn⟩ := hshifts.turn
  rw [hafter] at hturn
  rcases hturn.of_woken with hsame | ⟨deadline, hp⟩
  · exact absurd hsame hbefore
  · exact ⟨w, hw, ⟨l, d, deadline, hp, hafter⟩, hlasts⟩

/-- While an event is raised a hopeful sleeper ceases to be so only if it is woken and
deregisters. -/
theorem departs_of_hopeful {last : Option Tid} (hst : r.AtStage c (.raised e last) i)
    (ht : t ∈ r.hopeful c i) (ht' : t ∉ r.hopeful c (i + 1)) :
    e = .all ∧ r.Departs c t (some .all) i := by
  rw [mem_hopeful] at ht ht'
  obtain ⟨st, st', hshifts⟩ := shifts_of_ne hlimit (t := t) (i := i) fun hsame => ht' (hsame ▸ ht)
  obtain ⟨f, f', hcycle, hturn⟩ := hst.turn hshifts
  rcases hturn.of_hopeless ht (Bool.eq_false_iff.2 ht') with hnone | ⟨l, d, e', hp⟩
  · obtain ⟨flags, hflags⟩ := EventFlags.take?_put e
    rw [hcycle.events, Stage.events, hflags] at hnone
    cases hnone
  · have hpost := hst.post hp
    cases e' with
    | one => cases hpost.allows
    | all =>
      obtain ⟨last', hlast⟩ := hpost.allows
      cases hlast
      refine ⟨rfl, l, d, hp, ?_⟩
      intro hp'
      rw [hp', ← hp] at ht'
      exact ht' ht

/-! ## Inside the course

What the course says of its own moments: who registers, who is woken, and when. -/

namespace Course

/-- Nobody registers before the gate is opened. -/
theorem not_registers (h : r.Course c e s p j w k) (hpi : p ≤ i) (hik : i ≤ k) (t : Tid) :
    ¬ r.Registers c t i := by
  intro ht
  rcases Nat.lt_or_eq_of_le hpi with hpi | rfl
  · rcases Nat.lt_or_ge j i with hji | hij
    · rcases Nat.lt_or_ge w i with hwi | hiw
      · obtain ⟨st, hst, hpast⟩ := h.past i hwi hik
        rw [hst.of_registers ht] at hpast
        exact hpast
      · obtain ⟨last, hst⟩ := h.raised i hji hiw
        cases hst.of_registers ht
    · obtain ⟨last, hst⟩ := h.announced i hpi hij
      cases hst.of_registers ht
  · obtain rfl := mover_unique hlimit ht.ne h.publishes.ne
    obtain ⟨l, d, hp, -⟩ := ht
    cases hp.symm.trans h.publishes.1

/-- The registered sleepers only become fewer. -/
theorem registered_subset (h : r.Course c e s p j w k) {i' : Nat} (hpi : p ≤ i) (hi : i ≤ i')
    (hik : i' ≤ k) : r.registered c i' ⊆ r.registered c i := by
  induction i', hi using Nat.le_induction with
  | base => exact Finset.Subset.refl _
  | succ n hin ih =>
    exact (registered_succ_subset hlimit (h.not_registers hlimit (by omega) (by omega))).trans
      (ih (by omega))

/-- A sleeper is woken only while the event is raised, and by this event. -/
theorem of_wakes (h : r.Course c e s p j w k) {e' : WakeEvent} (hpi : p < i) (hik : i ≤ k)
    (ht : r.Wakes c e' t i) : j < i ∧ i ≤ w ∧ e' = e := by
  rcases Nat.lt_or_ge j i with hji | hij
  · rcases Nat.lt_or_ge w i with hwi | hiw
    · obtain ⟨st, hst, hpast⟩ := h.past i hwi hik
      rw [hst.of_wakes hlimit ht] at hpast
      exact hpast.elim
    · obtain ⟨last, hst⟩ := h.raised i hji hiw
      cases hst.of_wakes hlimit ht
      exact ⟨hji, hiw, rfl⟩
  · obtain ⟨last, hst⟩ := h.announced i hpi hij
    cases hst.of_wakes hlimit ht

/-- The event of a signal is consumed by whom it wakes. -/
theorem of_wakes_one (h : r.Course c .one s p j w k) {e' : WakeEvent} (hpi : p < i) (hik : i ≤ k)
    (ht : r.Wakes c e' t i) : e' = .one ∧ i = w := by
  obtain ⟨hji, hiw, rfl⟩ := h.of_wakes hlimit hpi hik ht
  refine ⟨rfl, ?_⟩
  rcases Nat.lt_or_eq_of_le hiw with hiw | rfl
  · obtain ⟨last, hst⟩ := h.raised (i + 1) (by omega) hiw
    obtain ⟨l, d, deadline, -, hp⟩ := ht
    cases (hst.post hp).allows
  · rfl

/-- While the event of a signal is raised the same sleepers stay hopeful. -/
theorem hopeful_eq (h : r.Course c .one s p j w k) (hji : j < i) (hiw : i ≤ w) :
    r.hopeful c i = r.hopeful c j := by
  have hpj := h.before.1
  have hwk := h.before.2.2
  induction i, hji using Nat.le_induction with
  | base => exact hopeful_of_raises hlimit h.raises
  | succ n hjn ih =>
    rw [← ih (by omega)]
    apply Finset.Subset.antisymm
    · exact hopeful_succ_subset hlimit (h.not_registers hlimit (by omega) (by omega))
    · intro t ht
      by_contra ht'
      obtain ⟨last, hst⟩ := h.raised n hjn (by omega)
      cases (departs_of_hopeful hlimit hst ht ht').1

end Course

end

/-! ## Whom a wakeup reaches

A signal's event is consumed in the last move in which it is raised. The turn of that move is that
of a sleeper that is woken, or that of the last sleeper, timed out; which of the two it is depends
on whether there were hopeful sleepers when the event was set. A broadcast's event stays set until
the last sleeper has left, so every hopeful one finds it. -/

/-- Whoever waits for an event after a timeout was the last to deregister. -/
theorem departs_of_await (hlimit : r.WithinLimit c) {l : LockRef} {d : Option Duration}
    (h : r.place c t i = .waiting l d (.await e)) :
    ∃ n < i, r.Departs c t none n ∧ r.registered c (n + 1) = ∅ ∧
      ∀ m, n < m → m ≤ i → r.place c t m = .waiting l d (.await e) := by
  obtain ⟨n, hn, st, st', hshifts, hbefore, hafter, hlasts⟩ :=
    exists_turn hlimit (A := fun p => p = .waiting l d (.await e)) (by simp) h
  obtain ⟨f, f', -, hturn⟩ := hshifts.turn
  rw [hafter] at hturn
  rcases hturn.of_await with hsame | hp
  · exact absurd hsame hbefore
  · refine ⟨n, hn, ⟨l, d, hp, ?_⟩, hshifts.after.of_awaits hafter, hlasts⟩
    simp [hafter]

/-- What becomes of a signal that is published in move `p`, sets its event in move `j`, and has the
gate opened again in move `k`. -/
structure SignalServed (r : Run) (c : CondRef) (p j k : Nat) : Prop where
  /-- If there are hopeful sleepers, exactly one of them is woken, and nobody else. -/
  woken : (r.hopeful c j).Nonempty → ∃ t ∈ r.hopeful c j, ∃ w d, j < w ∧ w < d ∧ d < k ∧
    r.Wakes c .one t w ∧ r.Departs c t (some .one) d ∧
    ∀ e u i, p < i → i ≤ k → r.Wakes c e u i → e = .one ∧ u = t ∧ i = w
  /-- If not, nobody is, and the sleeper that was the last to time out consumes the event. -/
  absorbed : r.hopeful c j = ∅ → (∀ e u i, p < i → i ≤ k → ¬ r.Wakes c e u i) ∧
    ∃ t ∈ r.registered c p, ∃ d w, d < w ∧ j < w ∧ w < k ∧ r.Departs c t none d ∧
      r.registered c (d + 1) = ∅ ∧ r.Absorbs c t w

/-- What becomes of a broadcast that is published in move `p`, sets its event in move `j`, and has
the gate opened again in move `k`. -/
structure BroadcastServed (r : Run) (c : CondRef) (p j k : Nat) : Prop where
  /-- Every hopeful sleeper is woken. -/
  woken : ∀ t ∈ r.hopeful c j, ∃ w d, j < w ∧ w < d ∧ d < k ∧ r.Wakes c .all t w ∧
    r.Departs c t (some .all) d
  /-- Everybody that was registered has deregistered. -/
  left : ∀ t ∈ r.registered c p, ∃ d w, p < d ∧ d < k ∧ r.Departs c t w d

namespace Course

/-- Who consumes the event of a signal: a sleeper that is woken, or the last one, timed out. -/
theorem consumes (h : r.Course c .one s p j w k) :
    (∃ t, r.Wakes c .one t w) ∨ r.registered c w = ∅ ∧ ∃ t, r.Absorbs c t w := by
  obtain ⟨t, last, st', ⟨hst, hst', hshift, ⟨f, f', -, hturn⟩, -⟩, hpast⟩ := h.ends
  have hpost := hst.post (t := t) rfl
  generalize hp : r.place c t w = p at hturn hpost
  generalize hp' : r.place c t (w + 1) = p' at hturn hshift
  generalize hrole : p'.role = role at hshift
  cases hshift with
  | stay | leaveRaised => exact hpast.elim
  | consume =>
    obtain ⟨l, d, rfl⟩ := Place.of_woken hrole
    rcases hturn.of_woken with rfl | ⟨deadline, rfl⟩
    · cases hpost.allows
    · exact .inl ⟨t, l, d, deadline, hp, hp'⟩
  | awaitOne =>
    obtain ⟨f₁, -, hcycle⟩ := hst
    have hawaits : (r.place c t w).role = .awaits .one := (if_pos rfl).mp (hcycle.posts t)
    rw [hp] at hawaits
    obtain ⟨l, d, rfl⟩ := Place.of_awaits hawaits
    cases hturn with
    | idle => cases hrole
    | awaitOne => exact .inr ⟨hcycle.empty_of_last, t, l, d, hp, hp'⟩

variable (hlimit : r.WithinLimit c)
include hlimit

/-- The gate is opened by a thread that has nothing else to do. -/
theorem reopening (h : r.Course c e s p j w k) (hopens : r.Opens c k) :
    ∃ u, r.AtStage c (.reopening u) k := by
  obtain ⟨st, hst, hpast⟩ := h.past k h.before.2.2 le_rfl
  obtain ⟨t, st', hshifts⟩ := hst.shifts hlimit (by rintro rfl; exact hpast)
  obtain rfl := hopens.after hshifts.after
  obtain rfl := hshifts.shift.of_past hpast
  exact ⟨t, hst⟩

/-- A sleeper that waits for the event after its timeout was registered at the publication. -/
theorem registered_of_await (h : r.Course c e s p j w k) {l : LockRef} {d : Option Duration}
    {e' : WakeEvent} (hpi : p ≤ i) (hik : i ≤ k) (hp : r.place c t i = .waiting l d (.await e')) :
    t ∈ r.registered c p ∧ ∃ n < i, r.Departs c t none n ∧ r.registered c (n + 1) = ∅ := by
  obtain ⟨n, hni, hdeparts, hempty, hlasts⟩ := departs_of_await hlimit hp
  refine ⟨?_, n, hni, hdeparts, hempty⟩
  rcases Nat.lt_or_ge n p with hnp | hpn
  · have hplace := hlasts p hnp hpi
    obtain ⟨st, hst⟩ := exists_atStage hlimit (t := t) (i := p) (by simp [hplace])
    exact absurd (h.publishes.nonempty hlimit) (by simp [hst.of_awaits hplace])
  · refine h.registered_subset hlimit le_rfl hpn (by omega) (mem_registered.2 ?_)
    obtain ⟨l, d, hplace, -⟩ := hdeparts
    rw [hplace]
    rfl

/-- What becomes of a signal in its course. -/
theorem signalServed (h : r.Course c .one s p j w k) (hopens : r.Opens c k) :
    r.SignalServed c p j k := by
  obtain ⟨hpj, hjw, hwk⟩ := h.before
  have hhopeful := h.hopeful_eq hlimit hjw le_rfl
  rcases h.consumes with ⟨t, hwakes⟩ | ⟨hempty, t, habsorbs⟩
  · obtain ⟨l, d, deadline, hp, hp'⟩ := id hwakes
    have ht : t ∈ r.hopeful c j := by
      rw [← hhopeful, mem_hopeful, hp]
      rfl
    constructor
    case woken =>
      intro _
      -- the gate is opened only after the sleeper has deregistered
      obtain ⟨u, hst⟩ := h.reopening hlimit hopens
      obtain ⟨n, hwn, hnk, hdeparts⟩ := departs_of_passed (k := k) hwk hp' fun hplace => by
        cases (hst.post hplace).allows
      refine ⟨t, ht, w, n, hjw, hwn, hnk, hwakes, hdeparts, ?_⟩
      intro e u i hpi hik hu
      obtain ⟨rfl, rfl⟩ := h.of_wakes_one hlimit hpi hik hu
      exact ⟨rfl, mover_unique hlimit hwakes.ne hu.ne, rfl⟩
    case absorbed =>
      intro hnone
      rw [hnone] at ht
      cases ht
  · -- a hopeful sleeper would be registered when the last one consumes the event
    have hnone : r.hopeful c j = ∅ := by
      rw [← hhopeful, hopeful, hempty]
      rfl
    constructor
    case woken =>
      intro hne
      rw [hnone] at hne
      exact absurd hne Finset.not_nonempty_empty
    case absorbed =>
      intro _
      refine ⟨?_, t, ?_⟩
      · intro e u i hpi hik hu
        obtain ⟨rfl, rfl⟩ := h.of_wakes_one hlimit hpi hik hu
        obtain ⟨l, d, deadline, hp, -⟩ := hu
        have hmem : u ∈ r.registered c i := by
          rw [mem_registered, hp]
          rfl
        rw [hempty] at hmem
        cases hmem
      · obtain ⟨l, d, hp, -⟩ := id habsorbs
        obtain ⟨ht, n, hnw, hdeparts, hlast⟩ :=
          h.registered_of_await hlimit (by omega) (by omega) hp
        exact ⟨ht, n, w, hnw, hjw, hwk, hdeparts, hlast, habsorbs⟩

/-- Once the event of a broadcast is past everybody has left. -/
theorem registered_empty (h : r.Course c .all s p j w k) (hwi : w < i) (hik : i ≤ k) :
    r.registered c i = ∅ := by
  obtain ⟨hpj, hjw, -⟩ := h.before
  have hlast : r.registered c (w + 1) = ∅ := by
    obtain ⟨t, last, st', ⟨-, ⟨f', -, hcycle'⟩, hshift, -, -⟩, hpast⟩ := h.ends
    generalize (r.place c t (w + 1)).role = role at hshift
    cases hshift with
    | stay | leaveRaised => exact hpast.elim
    | departAll | awaitAll => exact hcycle'.last
  rw [← Finset.subset_empty, ← hlast]
  exact h.registered_subset hlimit (by omega) hwi hik

/-- A hopeful sleeper is woken by a broadcast before it deregisters. -/
theorem wakes_of_departs (h : r.Course c .all s p j w k) (hji : j < i) (hik : i ≤ k)
    (ht : r.Departs c t (some .all) i) : ∃ n, j < n ∧ n < i ∧ r.Wakes c .all t n := by
  obtain ⟨hpj, hjw, -⟩ := h.before
  obtain ⟨l, d, hp, -⟩ := ht
  obtain ⟨n, hni, hwakes, hlasts⟩ := wakes_of_woken hlimit hp
  refine ⟨n, ?_, hni, hwakes⟩
  rcases Nat.lt_or_ge n j with hnj | hjn
  · obtain ⟨last, hst⟩ := h.announced j hpj le_rfl
    obtain ⟨last', hraised⟩ := (hst.post (hlasts j hnj (by omega))).allows
    cases hraised
  · exact (h.of_wakes hlimit (by omega) (by omega) hwakes).1

/-- What becomes of a broadcast in its course. -/
theorem broadcastServed (h : r.Course c .all s p j w k) : r.BroadcastServed c p j k := by
  obtain ⟨hpj, hjw, hwk⟩ := h.before
  have hempty := h.registered_empty hlimit hwk le_rfl
  constructor
  case woken =>
    intro t ht
    rw [← hopeful_of_raises hlimit h.raises] at ht
    have ht' : t ∉ r.hopeful c k := by
      rw [hopeful, hempty]
      exact Finset.notMem_empty t
    -- a sleeper ceases to be hopeful in some move, and while the event is raised
    obtain ⟨n, hjn, hnk, hall, hends⟩ :=
      exists_until (A := fun n => t ∈ r.hopeful c n) ht (by omega) ht'
    have hnw : n ≤ w := by
      by_contra hwn
      have hn := hall n hjn le_rfl
      rw [hopeful, h.registered_empty hlimit (by omega) (by omega)] at hn
      cases hn
    obtain ⟨last, hst⟩ := h.raised n hjn hnw
    obtain ⟨-, hdeparts⟩ := departs_of_hopeful hlimit hst (hall n hjn le_rfl) hends
    obtain ⟨v, hjv, hvn, hwakes⟩ := h.wakes_of_departs hlimit hjn (by omega) hdeparts
    exact ⟨v, n, hjv, hvn, hnk, hwakes, hdeparts⟩
  case left =>
    intro t ht
    obtain ⟨d, w', hpd, hdk, hdeparts⟩ := departs_of_left (k := k) hlimit (by omega) ht
      (by rw [hempty]; exact Finset.notMem_empty t)
    refine ⟨d, w', ?_, hdk, hdeparts⟩
    rcases Nat.lt_or_eq_of_le hpd with hpd | rfl
    · exact hpd
    · obtain rfl := mover_unique hlimit hdeparts.ne h.publishes.ne
      obtain ⟨l, timeout, hp, -⟩ := hdeparts
      cases hp.symm.trans h.publishes.1

end Course

/-- In every run within the limit, by the time the gate is opened again, a signal or a broadcast
that found somebody registered has set its event. From then on a signal has woken exactly one of
the sleepers whose event wait had not timed out, or none if there were none; and a broadcast has
woken all of them, and no sleeper that it found is left. -/
theorem wakeups_delivered (hlimit : r.WithinLimit c) :
    (∀ s p k, r.Publishes c .one s p → r.OpensNext c p k →
      ∃ j, p < j ∧ j < k ∧ r.Raises c .one s j ∧ r.SignalServed c p j k) ∧
    ∀ s p k, r.Publishes c .all s p → r.OpensNext c p k →
      ∃ j, p < j ∧ j < k ∧ r.Raises c .all s j ∧ r.BroadcastServed c p j k := by
  constructor
  · intro s p k hpublishes hnext
    obtain ⟨j, w, hcourse⟩ := course_of_publishes hlimit hpublishes hnext
    exact ⟨j, hcourse.before.1, hcourse.before.2.1.trans hcourse.before.2.2, hcourse.raises,
      hcourse.signalServed hlimit hnext.opens⟩
  · intro s p k hpublishes hnext
    obtain ⟨j, w, hcourse⟩ := course_of_publishes hlimit hpublishes hnext
    exact ⟨j, hcourse.before.1, hcourse.before.2.1.trans hcourse.before.2.2, hcourse.raises,
      hcourse.broadcastServed hlimit⟩

/-- Thread 0 sleeps three times: a signal wakes it, a broadcast wakes it, and the last time it is
too late for a signal, whose event it consumes. -/
def served : Run :=
  ofList (prelude ++ sleeping none ++ .begin 1 (.waking 1 .one) :: steps 1 4 ++ steps 0 7
    ++ .begin 0 (.waiting 1 0 none) :: steps 0 11 ++ .begin 1 (.waking 1 .all) :: steps 1 4
    ++ steps 0 9 ++ .begin 0 (.waiting 1 0 (some (.ofNanos 1))) :: steps 0 11
    ++ .tick 2 :: steps 0 1 ++ .begin 1 (.waking 1 .one) :: steps 1 3 ++ steps 0 1
    ++ steps 1 1 ++ steps 0 3) (by decide +kernel)

/-- All three happen: a sleeper of its own is woken by the signal and by the broadcast, and the
second signal is absorbed. -/
theorem wakeups_delivered_served :
    served.WithinLimit 1 ∧ (∃ t w, 25 < w ∧ w < 29 ∧ served.Wakes 1 .one t w) ∧
      (∃ w, 49 < w ∧ w < 55 ∧ served.Wakes 1 .all 0 w) ∧
      ∃ t w, 77 < w ∧ w < 82 ∧ served.Absorbs 1 t w := by
  have hlimit : served.WithinLimit 1 := withinLimit_ofList _ (by decide +kernel)
  obtain ⟨hsignal, hbroadcast⟩ := wakeups_delivered hlimit
  refine ⟨hlimit, ?_, ?_, ?_⟩
  · obtain ⟨j, hpj, hjk, hraises, hserved⟩ := hsignal 1 25 29 (by decide +kernel)
      ⟨by decide, by decide +kernel, by decide +kernel⟩
    have hset : ∀ i < 29, 25 < i → served.Raises 1 .one 1 i → i = 26 := by decide +kernel
    obtain rfl := hset j hjk hpj hraises
    obtain ⟨t, -, w, d, hjw, hwd, hdk, hwakes, -⟩ := hserved.woken ⟨0, by decide +kernel⟩
    exact ⟨t, w, by omega, by omega, hwakes⟩
  · obtain ⟨j, hpj, hjk, hraises, hserved⟩ := hbroadcast 1 49 55 (by decide +kernel)
      ⟨by decide, by decide +kernel, by decide +kernel⟩
    have hset : ∀ i < 55, 49 < i → served.Raises 1 .all 1 i → i = 50 := by decide +kernel
    obtain rfl := hset j hjk hpj hraises
    obtain ⟨w, d, hjw, hwd, hdk, hwakes, -⟩ := hserved.woken 0 (by decide +kernel)
    exact ⟨w, by omega, by omega, hwakes⟩
  · obtain ⟨j, hpj, hjk, hraises, hserved⟩ := hsignal 1 77 82 (by decide +kernel)
      ⟨by decide, by decide +kernel, by decide +kernel⟩
    have hset : ∀ i < 82, 77 < i → served.Raises 1 .one 1 i → i = 79 := by decide +kernel
    obtain rfl := hset j hjk hpj hraises
    obtain ⟨-, t, -, d, w, hdw, hjw, hwk, -, -, habsorbs⟩ := hserved.absorbed (by decide +kernel)
    exact ⟨t, w, by omega, hwk, habsorbs⟩

end Run

end Interlock
