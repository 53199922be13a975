import Interlock.Proofs.Condition.History
import Interlock.Proofs.Condition.Loop

/-!
# Deadlines of timed waits

A sleeper cuts its timeout down to whole milliseconds and adds it to the clock. The clock shows
more than any such timeout reaches, so a timed sleeper has a deadline, and an untimed one has none:
only a timed sleeper leaves without an event.

  * `Duration.Granular`: what the cut does to a span; `Instant.add?_truncated`: the sum exists;
  * `Run.exists_stepped`: what brought a thread to its phase of a wait, where it has been since;
  * `Run.Listens`: the moment at which a sleeper looks at the clock, and
    `Run.SleepsSince`: the sleep that begins with it;
  * `Run.KeepsTime`, `Run.timed_waits_expire`: how sleepers treat their time.
-/

namespace Interlock

/-! ## The granularity of a timeout

The clock shows bounded readings only, so the sum of a reading and a span may not exist. But a
timeout is cut down to milliseconds that 64 bits can count, which is less than the clock has room
for above any early reading of it. -/

/-- How a span is cut down to the granularity of a timed wait. -/
structure Duration.Granular (d : Duration) : Prop where
  /-- It is the whole milliseconds in the span, as far as 64 bits can count them. -/
  millis : d.truncated.nanos = min (d.nanos / 1_000_000) (2 ^ 64 - 1) * 1_000_000
  le : d.truncated.nanos ≤ d.nanos
  zero_iff : d.truncated = .zero ↔ d.nanos < 1_000_000
  mono : ∀ e : Duration, d.nanos ≤ e.nanos → d.truncated.nanos ≤ e.truncated.nanos
  idem : d.truncated.truncated = d.truncated

/-- A span is its number of nanoseconds. -/
theorem Duration.ext_nanos {d e : Duration} (h : d.nanos = e.nanos) : d = e := by
  cases d
  cases e
  cases h
  rfl

theorem Duration.truncated_nanos (d : Duration) :
    d.truncated.nanos = min (d.nanos / 1_000_000) 0xffff_ffff_ffff_ffff * 1_000_000 := rfl

/-- Every span is cut down so. -/
theorem Duration.granular (d : Duration) : d.Granular where
  millis := d.truncated_nanos
  le := by
    rw [truncated_nanos]
    omega
  zero_iff := by
    constructor
    · intro h
      have hzero : d.truncated.nanos = 0 := congrArg nanos h
      rw [truncated_nanos] at hzero
      omega
    · intro h
      apply ext_nanos
      rw [truncated_nanos]
      change _ = 0
      omega
  mono e h := by
    rw [truncated_nanos, truncated_nanos]
    omega
  idem := by
    apply ext_nanos
    rw [truncated_nanos, truncated_nanos]
    omega

/-- A reading of the clock below `2 ^ 62` seconds, half of what it can show. It may lie before the
zero of the clock. -/
def Instant.Early (now : Instant) : Prop := now.nanos < 0x4000_0000_0000_0000 * 1_000_000_000

/-- The clock can show what lies a timeout of a timed wait ahead. -/
theorem Instant.add?_truncated {now : Instant} (h : now.Early) (d : Duration) :
    ∃ deadline, now.add? d.truncated = some deadline ∧
      deadline.nanos = now.nanos + d.truncated.nanos := by
  unfold Early at h
  have hlt : now.nanos + d.truncated.nanos < 0x8000_0000_0000_0000 * 1_000_000_000 := by
    rw [Duration.truncated_nanos]
    omega
  exact ⟨⟨_, by have := now.le_nanos; omega, hlt⟩, dif_pos hlt, rfl⟩

theorem Instant.deadline_some (now : Instant) (d : Duration) : now.deadline (some d) = now.add? d :=
  rfl

/-- The sum, in nanoseconds. -/
theorem Instant.add?_nanos {now deadline : Instant} {d : Duration}
    (h : now.add? d = some deadline) : deadline.nanos = now.nanos + d.nanos := by
  unfold add? at h
  split at h
  · cases h
    rfl
  · cases h

/-! ## How a thread comes to its phase of a wait

A deadline is computed in one step and looked at in others, and in between the clock moves and the
others do. `exists_stepped` goes back from a phase to the step that led to it; it is applied twice,
from the departure to the sleep and from the sleep to the look at the clock. -/

section

variable {t : Tid} {c : CondRef} {l : LockRef} {timeout : Option Duration} {choice : Choice}
  {s s' : Store} {wrap : WaitPhase → Call} {finish : Store → Bool → Progress Call Reply}

/-- A wait at the portable condition variable goes on in it; it comes there by its last check. -/
theorem WaitPhase.fallback_of_next {p : WaitPhase} {q' : FallbackWaitPhase}
    (h : p.step t c l timeout s = .next s' (.fallback q')) :
    (∃ q, p = .fallback q ∧ q.step t c l timeout s = .next s' q') ∨
      q' = .enter ∧ ∃ f, s'.conds.get c = .fallback f := by
  cases p with
  | native p =>
    obtain ⟨q, -, heq⟩ | ⟨_, _, -, hdone⟩ := Progress.next_of_within h
    · cases heq
    · cases hdone
  | fallback p =>
    obtain ⟨q, hq, heq⟩ | ⟨_, _, -, hdone⟩ := Progress.next_of_within h
    · cases heq
      exact .inl ⟨p, rfl, hq⟩
    · cases hdone
  | check me =>
    simp only [step, Store.withLock, Store.violate] at h
    (repeat' split at h) <;> cases h
    exact .inr ⟨rfl, _, ‹_›⟩
  | _ =>
    simp only [step, Store.violate] at h
    (repeat' split at h) <;> cases h

/-- Who is in the middle of a wait is in a call that waits. -/
theorem Machine.exists_waiter {m : Machine} {q : FallbackWaitPhase}
    (h : m.place c t = .waiting l timeout q) :
    ∃ wrap finish, Call.Waiter c l timeout wrap finish ∧
      m.call? t = some (wrap (.fallback q)) := by
  rcases call?_of_waiting h with hcall | ⟨whole, start, hcall⟩
  · exact ⟨_, _, .plain, hcall⟩
  · exact ⟨_, _, .loop whole start, hcall⟩

/-- A sleeper is one that has just computed its deadline. -/
theorem FallbackWaitPhase.parked_of_next {q : FallbackWaitPhase} {deadline : Option Instant}
    (h : q.step t c l timeout s = .next s' (.parked deadline)) :
    q = .listen ∧ deadline = s.clock.deadline (timeout.map Duration.truncated) := by
  cases q with
  | listen =>
    cases h
    exact ⟨rfl, rfl⟩
  | unlocking p =>
    obtain ⟨_, -, heq⟩ | ⟨_, _, -, hdone⟩ := Progress.next_of_within h
    · cases heq
    · cases hdone
  | locking p w =>
    obtain ⟨_, -, heq⟩ | ⟨_, _, -, hdone⟩ := Progress.next_of_within h
    · cases heq
    · cases hdone
  | _ =>
    simp only [step, Store.withFallback, afterDeparture, Store.violate] at h
    (repeat' split at h) <;> cases h

/-- Only a sleeper whose deadline has come leaves without an event. -/
theorem FallbackWaitPhase.depart_of_next {q : FallbackWaitPhase}
    (h : q.step t c l timeout s = .next s' (.depart none)) :
    ∃ due, q = .parked (some due) ∧ due.nanos ≤ s.clock.nanos := by
  cases q with
  | parked deadline =>
    simp only [step, Store.withFallback] at h
    (repeat' split at h) <;> cases h
    cases deadline with
    | none => cases ‹s.clock.reached none = true›
    | some due => exact ⟨due, rfl, of_decide_eq_true ‹_›⟩
  | unlocking p =>
    obtain ⟨_, -, heq⟩ | ⟨_, _, -, hdone⟩ := Progress.next_of_within h
    · cases heq
    · cases hdone
  | locking p w =>
    obtain ⟨_, -, heq⟩ | ⟨_, _, -, hdone⟩ := Progress.next_of_within h
    · cases heq
    · cases hdone
  | _ =>
    simp only [step, Store.withFallback, afterDeparture, Store.violate] at h
    (repeat' split at h) <;> cases h

/-- A sleeper whose deadline has come does not sleep on. -/
theorem FallbackWaitPhase.step_parked {f : Fallback} {due : Instant}
    (hf : s.conds.get c = .fallback f) (hdue : due.nanos ≤ s.clock.nanos) :
    ∃ s' wokenBy, (parked (some due)).step t c l timeout s = .next s' (.depart wokenBy) := by
  have hreached : s.clock.reached (some due) = true := decide_eq_true hdue
  simp only [step, Store.withFallback, hf, hreached, if_true]
  split <;> exact ⟨_, _, rfl⟩

/-- A timed sleeper leaves without an event and without a failing check. -/
theorem FallbackWaitPhase.step_unwoken {f : Fallback} (hf : s.conds.get c = .fallback f)
    (htimed : timeout.isSome = true) :
    ∃ s' q', (depart none).step t c l timeout s = .next s' q' := by
  simp only [step, Store.withFallback, hf, afterDeparture, htimed, if_true]
  (repeat' split) <;> exact ⟨_, _, rfl⟩

/-- A call that goes on in the middle of a wait was in the middle of it, or begins the wait. -/
theorem Call.Waiter.of_next (hw : Call.Waiter c l timeout wrap finish) {call : Call}
    {p' : WaitPhase} (h : call.step t choice s = .next s' (wrap p')) :
    (∃ p, call = wrap p ∧ p.step t c l timeout s = .next s' p') ∨ p' = .entry := by
  have horigin := Call.origin_of_step h
  cases hw with
  | plain =>
    cases call <;> cases horigin
    rename_i p
    obtain ⟨q, hq, heq⟩ := Progress.next_of_lift h
    cases heq
    exact .inl ⟨p, rfl, hq⟩
  | loop whole start =>
    cases call <;> cases horigin
    rename_i p
    obtain ⟨q, hq, heq⟩ := Progress.next_of_lift h
    cases heq
    cases p with
    | waiting start' rest p =>
      obtain ⟨q, hq', heq⟩ | ⟨_, _, -, hdone⟩ := Progress.next_of_within hq
      · cases heq
        exact .inl ⟨p, rfl, hq'⟩
      · cases hdone
    | measure start' =>
      -- a wait of the loop begins
      simp only [WaitWhilePhase.step] at hq
      (repeat' split at hq) <;> cases hq <;> exact .inr rfl
    | _ => simp [WaitWhilePhase.step] at hq

end

namespace Run

variable {r : Run} {t : Tid} {i : Nat} {c : CondRef} {l : LockRef} {timeout : Option Duration}
  {wrap : WaitPhase → Call} {finish : Store → Bool → Progress Call Reply}
  {q q' : FallbackWaitPhase} {deadline : Option Instant}

/-- A thread is in its phase of a wait already, or its step leads there. -/
theorem waiter_arises (hw : Call.Waiter c l timeout wrap finish)
    (hcall : (r.state (i + 1)).call? t = some (wrap (.fallback q'))) :
    (r.state i).call? t = some (wrap (.fallback q')) ∨
      (∃ q choice, r.move i = .advance t choice ∧
        (r.state i).call? t = some (wrap (.fallback q)) ∧
        q.step t c l timeout (r.state i).store = .next (r.state (i + 1)).store q') ∨
      q' = .enter ∧ ∃ f, (r.state (i + 1)).store.conds.get c = .fallback f := by
  have hplace : (wrap (.fallback q')).place c = .waiting l timeout q' :=
    (hw.place c _).trans (if_pos rfl)
  cases (r.state_sound i).arises (r.state_allows i) hcall (hw.atBody _) with
  | idle hcall' => exact .inl hcall'
  | begun hmove hfresh => cases hplace.symm.trans ((Call.Calm.fresh hfresh).place c)
  | @resumed e _ hmove hcall' hbody heq =>
    rw [heq] at hplace
    cases hplace.symm.trans ((Call.Calm.resumed e hbody).place c)
  | @next choice call hmove hcall' hstep =>
    obtain ⟨p, rfl, hp⟩ | hentry := hw.of_next hstep
    · obtain ⟨q, rfl, hq⟩ | henter := WaitPhase.fallback_of_next hp
      · exact .inr (.inl ⟨q, choice, hmove, hcall', hq⟩)
      · exact .inr (.inr henter)
    · cases hentry
  | born heq => cases hw <;> cases heq

/-- Some step of its own has brought a thread to its phase of a wait, where it has been since. -/
theorem exists_stepped (hw : Call.Waiter c l timeout wrap finish)
    (hcall : (r.state i).call? t = some (wrap (.fallback q'))) (henter : q' ≠ .enter) :
    ∃ j < i, ∃ q choice, r.move j = .advance t choice ∧
      (r.state j).call? t = some (wrap (.fallback q)) ∧
      q.step t c l timeout (r.state j).store = .next (r.state (j + 1)).store q' ∧
      ∀ k, j < k → k ≤ i → (r.state k).call? t = some (wrap (.fallback q')) := by
  induction i with
  | zero => cases hcall
  | succ i ih =>
    rcases waiter_arises hw hcall with hcall' | ⟨q, choice, hmove, hcall', hstep⟩ | ⟨heq, -⟩
    · obtain ⟨j, hji, q, choice, hmove, hbefore, hstep, hsince⟩ := ih hcall'
      refine ⟨j, Nat.lt_succ_of_lt hji, q, choice, hmove, hbefore, hstep, fun k hjk hk => ?_⟩
      rcases Nat.lt_or_eq_of_le hk with hk | rfl
      · exact hsince k hjk (Nat.le_of_lt_succ hk)
      · exact hcall
    · refine ⟨i, Nat.lt_succ_self i, q, choice, hmove, hcall', hstep, fun k hik hk => ?_⟩
      obtain rfl : k = i + 1 := Nat.le_antisymm hk hik
      exact hcall
    · exact absurd heq henter

/-- A thread in the middle of a wait is so at a portable condition variable. -/
theorem portable_of_waiter (hw : Call.Waiter c l timeout wrap finish)
    (hcall : (r.state i).call? t = some (wrap (.fallback q'))) :
    ∃ f, (r.state i).store.conds.get c = .fallback f := by
  induction i generalizing q' with
  | zero => cases hcall
  | succ i ih =>
    have hkept {q : FallbackWaitPhase} (hcall : (r.state i).call? t = some (wrap (.fallback q))) :
        ∃ f, (r.state (i + 1)).store.conds.get c = .fallback f := by
      obtain ⟨f, hf⟩ := ih hcall
      have hmem : .condition c ∈ (wrap (.fallback q)).objects (r.state i).store := by
        cases hw <;> simp [Call.objects]
      have hbackend := (r.state_change i).backend (r.state_sound i) (Machine.mem_of_call? hcall)
        hmem (by rw [hf]; rfl)
      rw [hf] at hbackend
      cases hcond : (r.state (i + 1)).store.conds.get c with
      | fallback f' => exact ⟨f', rfl⟩
      | _ => simp [hcond, Condition.backend?] at hbackend
    rcases waiter_arises hw hcall with hcall' | ⟨q, -, -, hcall', -⟩ | ⟨-, hf⟩
    · exact hkept hcall'
    · exact hkept hcall'
    · exact hf

/-- Thread `t`, in a wait with this timeout, looks at the clock in move `i` for its deadline. -/
def Listens (r : Run) (c : CondRef) (l : LockRef) (timeout : Option Duration) (t : Tid) (i : Nat) :
    Prop :=
  (∃ choice, r.move i = .advance t choice) ∧ r.place c t i = .waiting l timeout .listen

/-- The sleep that thread `t` is in at moment `i` began with its look at the clock in move `j`, and
has had this deadline from the first. -/
structure SleepsSince (r : Run) (c : CondRef) (l : LockRef) (timeout : Option Duration) (t : Tid)
    (deadline : Option Instant) (j i : Nat) : Prop where
  before : j < i
  listens : r.Listens c l timeout t j
  parked : ∀ k, j < k → k ≤ i → r.place c t k = .waiting l timeout (.parked deadline)

/-- How the sleepers of a portable condition variable treat their time. -/
structure KeepsTime (r : Run) (c : CondRef) : Prop where
  /-- A timed sleeper has a deadline, as far ahead of the moment at which it looked at the clock,
  just before its sleep, as its timeout, cut down, says. -/
  timed : ∀ i t l d deadline, r.place c t i = .waiting l (some d) (.parked deadline) →
    ∃ j, r.SleepsSince c l (some d) t deadline j i ∧ ((r.state j).store.clock.Early →
      ∃ due, deadline = some due ∧
        due.nanos = (r.state j).store.clock.nanos + d.truncated.nanos)
  /-- An untimed one has none. -/
  untimed : ∀ i t l deadline, r.place c t i = .waiting l none (.parked deadline) → deadline = none
  /-- When the deadline has come, the next step of the sleeper ends its sleep. -/
  ends : ∀ i t choice l timeout due, r.place c t i = .waiting l timeout (.parked (some due)) →
    due.nanos ≤ (r.state i).store.clock.nanos → r.move i = .advance t choice →
    ∃ wokenBy, r.place c t (i + 1) = .waiting l timeout (.depart wokenBy)
  /-- Who leaves without an event is timed, and has slept until move `m`, when its time had
  passed. -/
  expired : ∀ i t l timeout, r.place c t i = .waiting l timeout (.depart none) →
    ∃ d due j m, timeout = some d ∧ r.SleepsSince c l timeout t (some due) j m ∧ m < i ∧
      (∀ k, m < k → k ≤ i → r.place c t k = .waiting l timeout (.depart none)) ∧
      due.nanos = (r.state j).store.clock.nanos + d.truncated.nanos ∧
      due.nanos ≤ (r.state m).store.clock.nanos ∧ due.nanos ≤ (r.state i).store.clock.nanos
  /-- So leaving without an event never fails. -/
  leaves : ∀ i t l timeout, r.place c t i = .waiting l timeout (.depart none) →
    ∀ choice, ((r.state i).advance t choice).2 = .working

/-! ## Sleepers and their time

The two uses of it, and the step forward when the time has come. -/

/-- A sleeper has computed its deadline in the step that has put it to sleep. -/
theorem sleeps_of_parked (h : r.place c t i = .waiting l timeout (.parked deadline)) :
    ∃ j, r.SleepsSince c l timeout t deadline j i ∧
      deadline = (r.state j).store.clock.deadline (timeout.map Duration.truncated) := by
  obtain ⟨wrap, finish, hw, hcall⟩ := Machine.exists_waiter h
  obtain ⟨j, hji, q, choice, hmove, hbefore, hstep, hsince⟩ := exists_stepped hw hcall (by simp)
  obtain ⟨rfl, hdeadline⟩ := FallbackWaitPhase.parked_of_next hstep
  exact ⟨j, ⟨hji, ⟨⟨choice, hmove⟩, (hw.place_of_call? hbefore c).trans (if_pos rfl)⟩,
    fun k hjk hki => (hw.place_of_call? (hsince k hjk hki) c).trans (if_pos rfl)⟩, hdeadline⟩

/-- Who leaves without an event has slept until its deadline. -/
theorem parked_of_depart (h : r.place c t i = .waiting l timeout (.depart none)) :
    ∃ m < i, ∃ due, r.place c t m = .waiting l timeout (.parked (some due)) ∧
      due.nanos ≤ (r.state m).store.clock.nanos ∧
      ∀ k, m < k → k ≤ i → r.place c t k = .waiting l timeout (.depart none) := by
  obtain ⟨wrap, finish, hw, hcall⟩ := Machine.exists_waiter h
  obtain ⟨m, hmi, q, choice, hmove, hbefore, hstep, hsince⟩ := exists_stepped hw hcall (by simp)
  obtain ⟨due, rfl, hdue⟩ := FallbackWaitPhase.depart_of_next hstep
  exact ⟨m, hmi, due, (hw.place_of_call? hbefore c).trans (if_pos rfl), hdue,
    fun k hmk hki => (hw.place_of_call? (hsince k hmk hki) c).trans (if_pos rfl)⟩

/-- A step of a wait leads its thread to its next place. -/
theorem place_of_next (hw : Call.Waiter c l timeout wrap finish) {choice : Choice} {s' : Store}
    (hcall : (r.state i).call? t = some (wrap (.fallback q)))
    (hstep : q.step t c l timeout (r.state i).store = .next s' q') :
    ((r.state i).advance t choice).2 = .working ∧
      (r.move i = .advance t choice → r.place c t (i + 1) = .waiting l timeout q') := by
  obtain ⟨outer, hget⟩ := List.head?_eq_some_iff.1 hcall
  have hphase : (WaitPhase.fallback q).step t c l timeout (r.state i).store =
      .next s' (.fallback q') := by
    rw [WaitPhase.step, hstep]
    rfl
  have hadvance := hw.advance_next choice hget hphase
  refine ⟨by rw [hadvance], fun hmove => ?_⟩
  have hcall' : (r.state (i + 1)).call? t = some (wrap (.fallback q')) := by
    rw [state_of_advance hmove, hadvance, Machine.call?, Table.get_set_self]
    rfl
  exact (hw.place_of_call? hcall' c).trans (if_pos rfl)

/-- Every timeout is cut down to whole milliseconds, so few that the clock can show the deadline;
and in every run the timed sleepers of a portable condition variable have a deadline, the untimed
ones have none, and none but the timed ones, whose time has passed, leave without an event. -/
theorem timed_waits_expire (r : Run) (c : CondRef) :
    (∀ d : Duration, d.Granular) ∧
      (∀ now : Instant, now.Early → ∀ d : Duration, ∃ deadline,
        now.add? d.truncated = some deadline ∧
          deadline.nanos = now.nanos + d.truncated.nanos) ∧
      r.KeepsTime c := by
  refine ⟨Duration.granular, fun now hearly => Instant.add?_truncated hearly, ?_⟩
  constructor
  case timed =>
    intro i t l d deadline hplace
    obtain ⟨j, hsleeps, hdeadline⟩ := sleeps_of_parked hplace
    rw [Option.map_some, Instant.deadline_some] at hdeadline
    exact ⟨j, hsleeps, fun hearly => hdeadline ▸ Instant.add?_truncated hearly d⟩
  case untimed =>
    intro i t l deadline hplace
    obtain ⟨j, -, hdeadline⟩ := sleeps_of_parked hplace
    exact hdeadline
  case ends =>
    intro i t choice l timeout due hplace hdue hmove
    obtain ⟨wrap, finish, hw, hcall⟩ := Machine.exists_waiter hplace
    obtain ⟨f, hf⟩ := portable_of_waiter hw hcall
    obtain ⟨s', wokenBy, hstep⟩ := FallbackWaitPhase.step_parked hf hdue
    exact ⟨wokenBy, (place_of_next hw hcall hstep).2 hmove⟩
  case expired =>
    intro i t l timeout hplace
    obtain ⟨m, hmi, due, hparked, hdue, hsince⟩ := parked_of_depart hplace
    obtain ⟨j, hsleeps, hdeadline⟩ := sleeps_of_parked hparked
    cases timeout with
    | none => cases hdeadline
    | some d =>
      rw [Option.map_some, Instant.deadline_some] at hdeadline
      exact ⟨d, due, j, m, rfl, hsleeps, hmi, hsince, Instant.add?_nanos hdeadline.symm, hdue,
        Int.le_trans hdue (r.clock_mono (Nat.le_of_lt hmi))⟩
  case leaves =>
    intro i t l timeout hplace choice
    obtain ⟨m, -, due, hparked, -⟩ := parked_of_depart hplace
    obtain ⟨j, -, hdeadline⟩ := sleeps_of_parked hparked
    -- only a timed wait has a deadline that can be reached
    have htimed : timeout.isSome = true := by
      cases timeout with
      | none => cases hdeadline
      | some d => rfl
    obtain ⟨wrap, finish, hw, hcall⟩ := Machine.exists_waiter hplace
    obtain ⟨f, hf⟩ := portable_of_waiter hw hcall
    obtain ⟨s', q', hstep⟩ := FallbackWaitPhase.step_unwoken (t := t) (l := l) hf htimed
    exact (place_of_next hw hcall hstep).1

/-- Thread 0 waits for as long as a timeout can be. -/
def patient : Run :=
  ofList (prelude ++ sleeping (some .longest)) (by decide +kernel)

/-- Its deadline lies as many milliseconds ahead as 64 bits can count. -/
theorem timed_waits_expire_longest :
    patient.KeepsTime 1 ∧
      ∃ due : Instant, due.nanos = Instant.start.nanos + 0xffff_ffff_ffff_ffff * 1_000_000 ∧
        patient.place 1 0 22 = .waiting 0 (some .longest) (.parked (some due)) :=
  ⟨(timed_waits_expire patient 1).2.2,
    ⟨Instant.start.nanos + 0xffff_ffff_ffff_ffff * 1_000_000, by decide, by decide⟩, rfl,
    by decide +kernel⟩

end Run

end Interlock
