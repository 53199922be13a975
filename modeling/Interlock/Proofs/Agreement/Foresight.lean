import Interlock.Proofs.Agreement.Pair

/-!
# Whom a signal wakes

The platform's signal removes a waiter from the queue at once. The portable one sets an event, and
the first sleeper that looks at it afterwards is the one that was woken. So a twin that is to follow
has to know in advance who that will be.

  * `Machine.Chooses`: while event `one` is set, one of the sleepers is chosen;
  * `Machine.foresee`: whom the events had chosen before a move, given whom they have chosen after
    it;
  * `Machine.Chooses.foresee`: that is a choice too, and `Machine.exists_chooses`: there always is
    one.
-/

namespace Interlock

/-! ## Events and those who sleep

A turn at a condition variable seldom has to do with event `one`. It is set by the wakeup that
announces it, before which nobody is chosen, and reset by whoever sees it; in all other turns the
event and the sleepers stay as they are, or one of the two is absent throughout. -/

/-- Whether the thread sleeps, and has neither seen an event nor run out of time. -/
def Place.isPending : Place → Bool
  | waiting _ _ p => p.isPending
  | _ => false

/-- Whoever pends is registered. -/
theorem Place.isRegistered_of_pending {p : Place} (h : p.isPending = true) :
    p.isRegistered = true := by
  cases p with
  | waiting l d p => cases p <;> first | rfl | cases h
  | _ => cases h

namespace Fallback.Turn

variable {f f' : Fallback} {p p' : Place}

theorem eq_of_same (h : f.Turn p f' p') (hp : p' = p) : f' = f := by
  cases h <;> first
    | rfl
    | cases hp

/-- What a turn does to event `one` and to whoever sleeps. -/
theorem pending (h : f.Turn p f' p') :
    (f'.events.one = f.events.one ∧ p'.isPending = p.isPending) ∨
      (f.events.one = false ∧ f'.events.one = false) ∨
      (f'.events = f.events ∧ ∃ l d, p = .waiting l d .register) ∨
      p = .waking .one .raise ∨
      (f.events.one = true ∧ ∃ l d deadline, p = .waiting l d (.parked deadline)) ∨
      f'.events.one = false ∧ ∃ l d, p = .waiting l d (.await .one) := by
  -- a turn keeps event `one`, or finds it clear and leaves it clear, or is one of the four that are
  -- named
  cases h with
  | @raise e =>
    cases e with
    | one => exact .inr (.inr (.inr (.inl rfl)))
    | all => exact .inl ⟨rfl, rfl⟩
  | register => exact .inr (.inr (.inl ⟨rfl, _, _, rfl⟩))
  | wake hevents =>
    rcases f.events.take_cases with ⟨hone, htake⟩ | ⟨hone, -, htake⟩ | ⟨-, -, htake⟩ <;>
      cases hevents.symm.trans htake
    · exact .inr (.inr (.inr (.inr (.inl ⟨hone, _, _, _, rfl⟩))))
    · exact .inr (.inl ⟨hone, hone⟩)
  | expire hevents =>
    rcases f.events.take_cases with ⟨-, htake⟩ | ⟨-, -, htake⟩ | ⟨hone, -, -⟩
    · cases hevents.symm.trans htake
    · cases hevents.symm.trans htake
    · exact .inr (.inl ⟨hone, hone⟩)
  | awaitOne hevents =>
    rcases f.events.take_cases with ⟨-, htake⟩ | ⟨-, -, htake⟩ | ⟨-, -, htake⟩ <;>
      cases hevents.symm.trans htake
    exact .inr (.inr (.inr (.inr (.inr ⟨rfl, _, _, rfl⟩))))
  | awaitAll hevents =>
    rcases f.events.take_cases with ⟨-, htake⟩ | ⟨-, -, htake⟩ | ⟨-, -, htake⟩ <;>
      cases hevents.symm.trans htake
    exact .inl ⟨rfl, rfl⟩
  | _ => exact .inl ⟨rfl, rfl⟩

end Fallback.Turn

namespace Machine

/-! ## Choices

The choice goes backwards through a run: it is made at the end, for the wakeups that are then on
their way, and each move before that tells whom they had chosen already. -/

/-- Whether event `one` of a condition variable is set. -/
def signalled (m : Machine) (c : CondRef) : Bool :=
  match m.store.conds.get c with
  | .fallback f => f.events.one
  | _ => false

/-- While event `one` is set, one of the sleepers is chosen, if anybody sleeps. -/
structure Chooses (m : Machine) (chosen : CondRef → Option Tid) : Prop where
  sleeps : ∀ c t, chosen c = some t → m.signalled c = true ∧ (m.place c t).isPending = true
  chooses : ∀ c t, m.signalled c = true → (m.place c t).isPending = true → chosen c ≠ none

/-- Whom event `one` had chosen before a move: whoever sees it in the move, and nobody before it
was set. -/
def foresee (m : Machine) (move : Move) (later : CondRef → Option Tid) (c : CondRef) :
    Option Tid :=
  match move with
  | .advance t _ =>
    match m.place c t with
    | .waiting _ _ (.parked _) => if m.signalled c then some t else later c
    | .waking .one .raise => none
    | _ => later c
  | _ => later c

variable {m m' : Machine} {move : Move} {chosen later : CondRef → Option Tid} {c : CondRef}
  {t : Tid}

/-- A choice can always be made. -/
theorem exists_chooses (m : Machine) : ∃ chosen, m.Chooses chosen := by
  classical
  let sleeper (c : CondRef) (t : Tid) : Prop :=
    m.signalled c = true ∧ (m.place c t).isPending = true
  refine ⟨fun c => if h : ∃ t, sleeper c t then some h.choose else none, ?_, ?_⟩
  · intro c t ht
    split at ht
    · rename_i hsome
      cases ht
      exact hsome.choose_spec
    · cases ht
  · intro c t hsignalled hpending
    rw [dif_pos ⟨t, hsignalled, hpending⟩]
    exact Option.some_ne_none _

theorem signalled_of_cond {f : Fallback} (hcond : m.store.conds.get c = .fallback f) :
    m.signalled c = f.events.one := by
  simp only [signalled, hcond]

/-- A thread that is at a condition variable tells its stage. -/
theorem Regular.stage_of_place (hregular : m.Regular) {p : Place} (hplace : m.place c t = p)
    (hp : p ≠ .outside) :
    ∃ f st, m.store.conds.get c = .fallback f ∧ Cycle st f (m.place c) (m.registered c) ∧
      st.Allows t p.role := by
  have horderly := hregular.orderly c
  have hportable : ∃ f, m.store.conds.get c = .fallback f := by
    by_contra hnot
    exact hp (hplace ▸ horderly.other (fun f hf => hnot ⟨f, hf⟩) t)
  obtain ⟨f, hcond⟩ := hportable
  obtain ⟨st, hcycle⟩ := horderly.portable f hcond
  exact ⟨f, st, hcond, hcycle, (hcycle.post_of hplace).allows⟩

/-- Event `one` is not set while it is announced. -/
theorem Regular.signalled_of_raise (hregular : m.Regular)
    (hplace : m.place c t = .waking .one .raise) : m.signalled c = false := by
  obtain ⟨f, st, hcond, hcycle, last, rfl⟩ := hregular.stage_of_place hplace (by simp)
  rw [signalled_of_cond hcond, hcycle.events]
  rfl

/-- Somebody who has come through the gate sees that no event is set. -/
theorem Regular.signalled_of_register (hregular : m.Regular) {l : LockRef} {d : Option Duration}
    (hplace : m.place c t = .waiting l d .register) : m.signalled c = false := by
  obtain ⟨f, st, hcond, hcycle, hallows⟩ := hregular.stage_of_place hplace (by simp)
  obtain rfl : st = .entering t := hallows
  rw [signalled_of_cond hcond, hcycle.events]
  rfl

/-- Nobody sleeps while the last sleeper waits for the event that has been announced. -/
theorem Regular.pending_of_await (hregular : m.Regular) {l : LockRef} {d : Option Duration}
    {e : WakeEvent} (hplace : m.place c t = .waiting l d (.await e)) (u : Tid) :
    (m.place c u).isPending = false := by
  obtain ⟨f, st, hcond, hcycle, hallows⟩ := hregular.stage_of_place hplace (by simp)
  have hempty : ¬ (m.registered c).Nonempty := by
    have hlast := hcycle.last
    rcases hallows with ⟨v, -, rfl⟩ | rfl
    · exact fun hnonempty => Option.some_ne_none t (hlast.2.2 hnonempty)
    · exact fun hnonempty => Option.some_ne_none t (hlast.2 hnonempty)
  by_contra hpending
  have hregistered := Place.isRegistered_of_pending (by simpa using hpending)
  exact hempty ⟨u, (mem_registered hregular.sound).2 hregistered⟩

/-- The part of `Chooses` about one condition variable. -/
def ChoosesAt (m : Machine) (c : CondRef) (chosen : Option Tid) : Prop :=
  (∀ t, chosen = some t → m.signalled c = true ∧ (m.place c t).isPending = true) ∧
    ∀ t, m.signalled c = true → (m.place c t).isPending = true → chosen ≠ none

/-- Nobody is chosen while event `one` is not set. -/
theorem Chooses.eq_none (h : m.Chooses chosen) (hclear : m.signalled c = false) :
    chosen c = none := by
  cases hchosen : chosen c with
  | none => rfl
  | some t => cases hclear.symm.trans (h.sleeps c t hchosen).1

theorem Chooses.at (h : m.Chooses chosen) (c : CondRef) : m.ChoosesAt c (chosen c) :=
  ⟨h.sleeps c, h.chooses c⟩

/-- Nobody has to be chosen, and nobody is. -/
theorem ChoosesAt.of_quiet {chosen : Option Tid} (h : m'.ChoosesAt c chosen)
    (hsignalled' : m'.signalled c = false ∨ ∀ t, (m'.place c t).isPending = false)
    (hsignalled : m.signalled c = false ∨ ∀ t, (m.place c t).isPending = false) :
    m.ChoosesAt c chosen := by
  have hnone : chosen = none := by
    cases hchosen : chosen with
    | none => rfl
    | some t =>
      obtain ⟨hset, hpending⟩ := h.1 t hchosen
      rcases hsignalled' with hclear | hnobody
      · cases hclear.symm.trans hset
      · cases (hnobody t).symm.trans hpending
  subst hnone
  refine ⟨by simp, fun t hset hpending => ?_⟩
  rcases hsignalled with hclear | hnobody
  · cases hclear.symm.trans hset
  · cases (hnobody t).symm.trans hpending

/-- A move in which nobody sees event `one` and nobody sets it leaves the choice as it is. -/
theorem ChoosesAt.before {chosen : Option Tid} (h : m'.ChoosesAt c chosen) (hregular : m.Regular)
    (hevent : Event c m move m')
    (hsees : ∀ t choice l d deadline, move = .advance t choice →
      m.place c t = .waiting l d (.parked deadline) → m.signalled c = false)
    (hraises : ∀ t choice, move = .advance t choice → m.place c t ≠ .waking .one .raise) :
    m.ChoosesAt c chosen := by
  -- a choice looks at nothing but whether the event is set and who sleeps
  have hkept (hsignalled : m'.signalled c = m.signalled c)
      (hpending : ∀ t, (m'.place c t).isPending = (m.place c t).isPending) :
      m.ChoosesAt c chosen := by
    simpa only [ChoosesAt, hsignalled, hpending] using h
  cases hevent with
  | reset hplace hplace' hcond' =>
    refine h.of_quiet (.inr fun t => ?_) (.inr fun t => ?_)
    · rw [hplace']
      rfl
    · rw [hplace]
      rfl
  | @turn u f f' hcond hcond' hturn hmover hothers =>
    have hsignalled := signalled_of_cond hcond
    have hsignalled' := signalled_of_cond hcond'
    -- a thread that keeps its place has done nothing to the condition variable
    by_cases hsame : m'.place c u = m.place c u
    · obtain rfl := hturn.eq_of_same hsame
      refine hkept (hsignalled'.trans hsignalled.symm) fun t => ?_
      by_cases htu : t = u
      · rw [htu, hsame]
      · rw [hothers t htu]
    · obtain ⟨choice, hmove⟩ := hmover.resolve_left hsame
      rcases hturn.pending with ⟨hone, hpending⟩ | ⟨hone, hone'⟩ | ⟨hevents, l, d, hplace⟩ |
        hplace | ⟨hone, l, d, deadline, hplace⟩ | ⟨hone', l, d, hplace⟩
      · refine hkept (by rw [hsignalled', hsignalled, hone]) fun t => ?_
        by_cases htu : t = u
        · rw [htu, hpending]
        · rw [hothers t htu]
      · exact h.of_quiet (.inl (hsignalled'.trans hone')) (.inl (hsignalled.trans hone))
      · have hclear := hregular.signalled_of_register hplace
        refine h.of_quiet (.inl ?_) (.inl hclear)
        rw [hsignalled', hevents, ← hsignalled, hclear]
      · exact absurd hplace (hraises u choice hmove)
      · have hclear := hsees u choice l d deadline hmove hplace
        rw [hsignalled, hone] at hclear
        cases hclear
      · exact h.of_quiet (.inl (hsignalled'.trans hone')) (.inr (hregular.pending_of_await hplace))

/-- What was foreseen is a choice. -/
theorem Chooses.foresee (h : m'.Chooses later) (hregular : m.Regular)
    (hevent : ∀ c, Event c m move m') : m.Chooses (m.foresee move later) := by
  suffices hat : ∀ c, m.ChoosesAt c (m.foresee move later c) from
    ⟨fun c => (hat c).1, fun c => (hat c).2⟩
  intro c
  have hbefore := (h.at c).before hregular (hevent c)
  -- only a sleeper that finds event `one` set, and a thread that sets it, decide anything
  unfold Machine.foresee
  split
  · rename_i t choice
    split
    · rename_i l d deadline hplace
      split
      · rename_i hsignalled
        refine ⟨?_, fun _ _ _ => Option.some_ne_none t⟩
        rintro _ ⟨⟩
        refine ⟨hsignalled, ?_⟩
        rw [hplace]
        rfl
      · rename_i hsignalled
        refine hbefore ?_ ?_
        · rintro _ _ _ _ _ ⟨⟩ -
          simpa using hsignalled
        · rintro _ _ ⟨⟩ hraise
          cases hplace.symm.trans hraise
    · rename_i hplace
      have hclear := hregular.signalled_of_raise hplace
      refine ⟨by simp, fun _ hsignalled => ?_⟩
      cases hclear.symm.trans hsignalled
    · rename_i hparked hraise
      refine hbefore ?_ ?_
      · rintro _ _ l d deadline ⟨⟩ hplace
        exact absurd hplace (hparked l d deadline)
      · rintro _ _ ⟨⟩ hplace
        exact hraise hplace
  · rename_i hmove
    refine hbefore ?_ ?_
    · rintro t choice _ _ _ rfl
      exact absurd rfl (hmove t choice)
    · rintro t choice rfl
      exact absurd rfl (hmove t choice)

end Machine

end Interlock
