import Interlock.Proofs.Agreement.Ready
import Interlock.Proofs.Agreement.Wait
import Interlock.Proofs.Agreement.Signal
import Interlock.Proofs.Condition.Gate

/-!
# When nothing can run

Where no call of a machine with portable condition variables can take a step, its twin's calls are
stopped too, and by the same obstacles.

  * `Obstacle`, `Machine.obstacle`: what a call waits for that cannot go on;
  * `Machine.Halted`: no call can take a step;
  * `Machine.HaltsAs`: the calls of another machine stop where those of a halted one do;
  * `Machine.Agrees.haltsAs`: a twin does.
-/

namespace Interlock

/-! ## Obstacles

That the second machine stops where the first one does is more than that it shows the same: a
program that is stuck on the portable backend is stuck on the platform's, for the same reason. Only
time can make a difference, since the twin of a sleeper may have an earlier deadline. -/

/-- What a call waits for that cannot go on: a mutex that is locked, or to be woken. -/
inductive Obstacle where
  | mutex (l : LockRef)
  | condition (c : CondRef) (l : LockRef) (timeout : Option Duration)
  deriving DecidableEq

/-- Whether the obstacle goes away when time passes. -/
def Obstacle.isTimed : Obstacle → Bool
  | mutex _ => false
  | condition _ _ timeout => timeout.isSome

/-- What a sleeper waits for: to be removed from the queue, or to see an event. -/
def WaitPhase.obstacle (t : Tid) (c : CondRef) (l : LockRef) (timeout : Option Duration)
    (s : Store) : WaitPhase → Option Obstacle
  | native (.queued _ _) =>
    match s.conds.get c with
    | .native q => if q.waiting t then some (.condition c l timeout) else none
    | _ => none
  | fallback (.parked _) =>
    match s.conds.get c with
    | .fallback f => if f.events.take?.isNone then some (.condition c l timeout) else none
    | _ => none
  | _ => none

def Call.obstacle (t : Tid) (s : Store) : Call → Option Obstacle
  | wait c l timeout p | waitWhile c l _ (.waiting _ timeout p) => p.obstacle t c l timeout s
  | _ => none

namespace Machine

/-- What stops the innermost call of thread `t`. -/
def obstacle (m : Machine) (t : Tid) : Option Obstacle :=
  match m.wanted t with
  | some l => if (m.store.lock l).any (·.isLocked) then some (.mutex l) else none
  | none => (m.call? t).bind (·.obstacle t m.store)

/-- Whether thread `t` is in a call that does not run its client's code. -/
def calling (m : Machine) (t : Tid) : Bool := (m.call? t).any (!·.atBody)

/-- No call can take a step. -/
def Halted (m : Machine) : Prop :=
  ∀ t choice, m.calling t = true → (m.advance t choice).2 = .blocked

/-- The calls of machine `m'` stop where those of machine `m` do: the same threads are in calls, and
each call waits for the same. A call that wants a mutex cannot take a step in `m'` either, nor can a
wait without a timeout. A timed wait has not been woken in `m'`, but its time may be up there. -/
structure HaltsAs (m m' : Machine) : Prop where
  calling : ∀ t, m'.calling t = m.calling t
  isSome : ∀ t, m.calling t = true → (m.obstacle t).isSome = true
  obstacle : ∀ t, m'.obstacle t = m.obstacle t
  blocked : ∀ t o, m.obstacle t = some o → o.isTimed = false →
    ∀ choice, (m'.advance t choice).2 = .blocked

end Machine

/-! ## Blocked calls

A joint call that cannot take a step waits for a locked mutex: every other step of its phases can
always be taken. The lemmas follow the phases from the inside to the outside. -/

section

variable {t : Tid} {s : Store} {l : LockRef} {φ ρ : Type} {p : Progress φ ρ}

/-- A phase within a phase is what stops the larger one. -/
theorem Progress.blocked_of_within {ψ τ : Type} {wrap : φ → ψ} {finish : Store → ρ → Progress ψ τ}
    (hfinish : ∀ s r, finish s r ≠ .blocked) (h : p.within wrap finish = .blocked) :
    p = .blocked := by
  by_contra hp
  exact ne_blocked_of_within hp hfinish h

/-- An earlier panic stops nothing, -/
theorem Progress.blocked_of_whileUnwinding {pending : Option Panic}
    (h : p.whileUnwinding pending = .blocked) : p = .blocked := by
  unfold whileUnwinding at h
  split at h
  · cases p <;> first | rfl | cases h
  · exact h

/-- and neither does the end of a call. -/
theorem Progress.passOn_ne_blocked (s : Store) (reply : ρ) (pending : Option Panic) :
    (passOn s reply pending : Progress φ ρ) ≠ .blocked := by
  cases pending <;> simp [passOn]

/-- Only a locked mutex stops a thread that locks it. -/
theorem LockPhase.locked_of_blocked {p : LockPhase}
    (hfits : (p.grip .none).Fits s.ids.own.get (s.lock l) t) (h : p.step t l s = .blocked) :
    ∃ me k, p = take me ∧ s.lock l = some k ∧ k.isLocked = true := by
  cases p with
  | entry =>
    simp only [step, Store.violate] at h
    split at h <;> cases h
  | check me =>
    obtain ⟨k, hk⟩ := hfits
    simp only [step, Store.withLock, hk, Store.violate] at h
    split at h <;> cases h
  | take me =>
    obtain ⟨k, hk, -⟩ := hfits
    simp only [step, Store.withLock, hk] at h
    split at h
    · exact ⟨me, k, rfl, hk, ‹_›⟩
    · cases h
  | claim me =>
    have hk : s.lock l = _ := hfits
    simp only [step, Store.withLock, hk] at h
    cases h

/-- Only a locked mutex stops a thread in a guard scope. -/
theorem ScopePhase.locked_of_blocked {p : ScopePhase}
    (hfits : p.grip.Fits s.ids.own.get (s.lock l) t) (hbody : p ≠ body)
    (h : p.step t l s = .blocked) :
    ∃ me k, p = locking (.take me) ∧ s.lock l = some k ∧ k.isLocked = true := by
  cases p with
  | locking p =>
    have hblocked := Progress.blocked_of_within (by simp) h
    obtain ⟨me, k, rfl, hk⟩ := LockPhase.locked_of_blocked hfits hblocked
    exact ⟨me, k, rfl, hk⟩
  | body => exact absurd rfl hbody
  | unlocking p pending =>
    have hblocked := Progress.blocked_of_within (fun _ _ => Progress.passOn_ne_blocked _ _ _) h
    exact absurd (Progress.blocked_of_whileUnwinding hblocked) (p.ne_blocked (.inl rfl) hfits)

/-- Only a locked mutex stops a thread in an unlocked section. -/
theorem UnlockedPhase.locked_of_blocked {p : UnlockedPhase}
    (hfits : p.grip.Fits s.ids.own.get (s.lock l) t) (hbody : p ≠ body)
    (h : p.step t l s = .blocked) :
    ∃ me pending k, p = relocking (.take me) pending ∧ s.lock l = some k ∧ k.isLocked = true := by
  cases p with
  | unlocking p =>
    have hblocked := Progress.blocked_of_within (by simp) h
    exact absurd hblocked (p.ne_blocked (.inl rfl) hfits)
  | body => exact absurd rfl hbody
  | relocking p pending =>
    have hblocked := Progress.blocked_of_within (fun _ _ => Progress.passOn_ne_blocked _ _ _) h
    obtain ⟨me, k, rfl, hk⟩ :=
      LockPhase.locked_of_blocked hfits (Progress.blocked_of_whileUnwinding hblocked)
    exact ⟨me, pending, k, rfl, hk⟩

/-- Nothing stops the checks that a wait begins with. -/
theorem WaitPhase.ne_blocked {c : CondRef} {timeout : Option Duration} {p : WaitPhase}
    (hfits : p.grip.Fits s.ids.own.get (s.lock l) t) (hon : p.isOn .fallback = true)
    (hready : p.isChecking = true → s.conds.get c ≠ .raw) (hjoint : ∀ q, p ≠ fallback q) :
    p.step t c l timeout s ≠ .blocked := by
  intro h
  cases p with
  | entry =>
    simp only [step, Store.violate] at h
    split at h <;> cases h
  | identify =>
    simp only [step, Store.violate] at h
    split at h <;> cases h
  | check me =>
    obtain ⟨k, hk⟩ := hfits
    have hcond := hready rfl
    simp only [step, Store.withLock, hk, Store.violate] at h
    split at h
    · cases h
    · split at h <;> contradiction
  | native p => cases hon
  | fallback p => exact hjoint p rfl

/-- Nor does anything stop a loop, between its waits. -/
theorem WaitWhilePhase.ne_blocked {c : CondRef} {timeout : Option Duration} {p : WaitWhilePhase}
    (hfits : p.grip.Fits s.ids.own.get (s.lock l) t) (hon : p.isOn .fallback = true)
    (hready : ∀ start rest q, p = waiting start rest q → q.isChecking = true →
      s.conds.get c ≠ .raw)
    (hbody : ∀ start, p ≠ test start)
    (hjoint : ∀ start rest q, p ≠ waiting start rest (.fallback q)) :
    p.step t c l timeout s ≠ .blocked := by
  intro h
  cases p with
  | waiting start rest p =>
    refine WaitPhase.ne_blocked hfits hon (hready start rest p rfl) ?_
      (Progress.blocked_of_within (by simp) h)
    rintro q rfl
    exact hjoint start rest q rfl
  | test start => exact hbody start rfl
  | measure start =>
    simp only [step] at h
    (repeat' split at h) <;> cases h
  | _ => cases h

end

/-- What a wait is stopped by, in either machine. -/
theorem Call.Waiter.obstacle {t : Tid} {c : CondRef} {l : LockRef} {timeout : Option Duration}
    {wrap : WaitPhase → Call} {finish : Store → Bool → Progress Call Reply}
    (hw : Waiter c l timeout wrap finish) (s : Store) (p : WaitPhase) :
    (wrap p).obstacle t s = p.obstacle t c l timeout s := by
  cases hw <;> rfl

namespace Machine

variable {m m' : Machine} {chosen : CondRef → Option Tid} {deadline : Tid → Option Instant}
  {t : Tid} {call : Call} {l : LockRef} {c : CondRef} {f : Fallback}

/-- A locked mutex stops whoever wants it. -/
theorem advance_of_wanted {k : LockState} (hwanted : m.wanted t = some l)
    (hlock : m.store.lock l = some k) (hlocked : k.isLocked = true) (choice : Choice) :
    (m.advance t choice).2 = .blocked := by
  have hstep {call : Call} (hcall : m.call? t = some call)
      (h : call.step t choice m.store = .blocked) : (m.advance t choice).2 = .blocked := by
    obtain ⟨outer, hget⟩ := List.head?_eq_some_iff.1 hcall
    rw [advance_of_blocked hget h]
  unfold wanted at hwanted
  split at hwanted <;> first
    | cases hwanted
      refine hstep ‹_› ?_
      simp [Call.step, Call.lift, LockPhase.step, ScopePhase.step, UnlockedPhase.step,
        WaitPhase.step, WaitWhilePhase.step, NativeWaitPhase.step, FallbackWaitPhase.step,
        OncePhase.step, Store.withLock, hlock, hlocked, Progress.within, Progress.whileUnwinding,
        Progress.orAbort]
    | cases hwanted

/-- Only a locked mutex stops a joint call. -/
theorem Regular.wanted_of_blocked (hregular : m.Regular) (hready : m.Ready) {choice : Choice}
    (hcall : m.call? t = some call) (hon : call.isOn .fallback = true)
    (hjoint : call.isJoint = true) (hbody : call.atBody = false)
    (hblocked : call.step t choice m.store = .blocked) :
    ∃ l k, m.wanted t = some l ∧ m.store.lock l = some k ∧ k.isLocked = true := by
  have hgrip (l : LockRef) : (call.grip l m.store).Fits m.store.ids.own.get (m.store.lock l) t := by
    have hfits := (hregular.holds l).grips t
    rwa [grip, see_of_call? hcall] at hfits
  have hchecks (c : CondRef) (hc : call.checks = some c) : m.store.conds.get c ≠ .raw := by
    obtain ⟨f, hf⟩ := hready t c ((see_of_call? hcall).trans hc)
    simp [hf]
  -- what takes no mutex has a step in every branch; what takes one waits for a holder alone
  cases call with
  | initMutex l =>
    have h := Progress.blocked_of_within (by simp) hblocked
    simp only [initMutexStep, Store.violate] at h
    split at h <;> cases h
  | lock l p =>
    have hfits := hgrip l
    rw [Call.grip, if_pos rfl] at hfits
    obtain ⟨me, k, rfl, hk⟩ :=
      LockPhase.locked_of_blocked hfits (Progress.blocked_of_within (by simp) hblocked)
    exact ⟨l, k, by rw [wanted, hcall], hk⟩
  | unlock l p =>
    have hfits := hgrip l
    rw [Call.grip, if_pos rfl] at hfits
    exact absurd (Progress.blocked_of_within (by simp) hblocked) (p.ne_blocked (.inl rfl) hfits)
  | scope l p =>
    have hfits := hgrip l
    rw [Call.grip, if_pos rfl] at hfits
    have hp : p ≠ .body := by
      rintro rfl
      cases hbody
    obtain ⟨me, k, rfl, hk⟩ :=
      ScopePhase.locked_of_blocked hfits hp (Progress.blocked_of_within (by simp) hblocked)
    exact ⟨l, k, by rw [wanted, hcall], hk⟩
  | unlocked l p =>
    have hfits := hgrip l
    rw [Call.grip, if_pos rfl] at hfits
    have hp : p ≠ .body := by
      rintro rfl
      cases hbody
    obtain ⟨me, pending, k, rfl, hk⟩ :=
      UnlockedPhase.locked_of_blocked hfits hp (Progress.blocked_of_within (by simp) hblocked)
    exact ⟨l, k, by rw [wanted, hcall], hk⟩
  | initCond c backend =>
    have h := Progress.blocked_of_within (by simp) hblocked
    simp only [initCondStep, Store.violate] at h
    split at h <;> cases h
  | wakeup c e p =>
    obtain rfl : p = .entry := by simpa [Call.isJoint] using hjoint
    have h := Progress.blocked_of_within (by simp) hblocked
    simp only [WakeupPhase.step, Store.violate] at h
    split at h <;> cases h
  | wait c l timeout p =>
    have hfits := hgrip l
    rw [Call.grip, if_pos rfl] at hfits
    have hp : ∀ q, p ≠ .fallback q := by
      rintro q rfl
      cases hjoint
    have hchecking (h : p.isChecking = true) := hchecks c (by rw [Call.checks, if_pos h])
    exact absurd (Progress.blocked_of_within (by simp) hblocked)
      (WaitPhase.ne_blocked hfits hon hchecking hp)
  | waitWhile c l timeout p =>
    have hfits := hgrip l
    rw [Call.grip, if_pos rfl] at hfits
    refine absurd (Progress.blocked_of_within (by simp) hblocked)
      (WaitWhilePhase.ne_blocked hfits hon ?_ ?_ ?_)
    · rintro start rest q rfl h
      exact hchecks c (by rw [Call.checks, if_pos h])
    · rintro start rfl
      cases hbody
    · rintro start rest q rfl
      cases hjoint
  | destroy o unwinding =>
    have h := Progress.blocked_of_within (by simp) hblocked
    simp only [destroyStep] at h
    split at h <;> cases h
  | _ => cases hon

/-! ## Halted machines

If nothing can run, then nobody is on the way through a gate, because a closed gate always has
somebody inside that can take a step. So all condition variables are calm: no event is set, and
whoever is there is parked or wants its mutex back. -/

/-- Whoever is at a condition variable is in a call. -/
theorem calling_of_place (h : m.place c t ≠ .outside) : m.calling t = true := by
  cases hcall : m.call? t with
  | none =>
    rw [place, see, hcall] at h
    exact absurd rfl h
  | some call =>
    rw [place, see_of_call? hcall] at h
    rw [calling, hcall]
    by_contra hbody
    have hcalm : call.Calm := .body (by simpa using hbody)
    exact h (hcalm.place c)

/-- Where nothing can run, nothing is on its way at a condition variable, and whoever is there
sleeps, or wants its mutex back. -/
theorem Regular.calm_of_halted (hregular : m.Regular) (hhalted : m.Halted)
    (hcond : m.store.conds.get c = .fallback f) :
    Cycle .calm f (m.place c) (m.registered c) ∧
      ∀ t, m.place c t ≠ .outside →
        (∃ l d own, m.place c t = .waiting l d (.parked own)) ∨
          ∃ l d me w, m.place c t = .waiting l d (.locking (.take me) w) := by
  obtain ⟨st, hcycle⟩ := (hregular.orderly c).portable f hcond
  have hstuck {u : Tid} (hinside : m.place c u ≠ .outside) : f.Stuck (m.place c u) :=
    stuck_of_blocked hregular.identified hregular.holds hcond hinside
      (Run.not_nowhere (hcycle.posts u)) (hhalted u ⟨0, false⟩ (calling_of_place hinside))
  obtain rfl : st = .calm := by
    by_contra hcalm
    obtain ⟨u, hinside, hfree⟩ := hcycle.exists_not_stuck hcalm
    exact hfree (hstuck hinside)
  exact ⟨hcycle, fun u hinside => hcycle.stuck_calm (hstuck hinside)⟩

theorem Regular.place_of_halted (hregular : m.Regular) (hhalted : m.Halted) {p : Place}
    (hplace : m.place c t = p) (hp : p ≠ .outside) :
    ∃ f, m.store.conds.get c = .fallback f ∧ f.events = .clear ∧
      ((∃ l d own, p = .waiting l d (.parked own)) ∨
        ∃ l d me w, p = .waiting l d (.locking (.take me) w)) := by
  obtain ⟨f, st, hcond, -⟩ := hregular.stage_of_place hplace hp
  obtain ⟨hcycle, hplaces⟩ := hregular.calm_of_halted hhalted hcond
  exact ⟨f, hcond, hcycle.events, hplace ▸ hplaces t (hplace ▸ hp)⟩

/-- Where nothing can run, nobody has still to release its mutex. -/
theorem Regular.leaves_of_halted (hregular : m.Regular) (hhalted : m.Halted) (u : Tid) :
    m.leaves u = none := by
  cases hleaves : m.leaves u with
  | none => rfl
  | some l =>
    obtain ⟨c, -, timeout, p, hplace, hleaving⟩ := pends_of_leaves hleaves
    obtain ⟨f, -, -, hparked | htaking⟩ := hregular.place_of_halted hhalted hplace (by simp)
    · obtain ⟨_, _, _, heq⟩ := hparked
      cases heq
      cases hleaving
    · obtain ⟨_, _, _, _, heq⟩ := htaking
      cases heq
      cases hleaving

/-- Where nothing can run, no signal is on its way. -/
theorem Regular.signalled_of_halted (hregular : m.Regular) (hhalted : m.Halted) (c : CondRef) :
    m.signalled c = false := by
  unfold signalled
  split
  · rename_i hcond
    rw [(hregular.calm_of_halted hhalted hcond).1.events]
    rfl
  · rfl

/-! ## The same obstacles

In a calm machine no mutex is being left and nobody is chosen, so the mutexes are the same in the
twin, and a sleeper's twin is in the queue. Each thread is looked at in turn. -/

theorem obstacle_of_locked {k : LockState} (hwanted : m.wanted t = some l)
    (hlock : m.store.lock l = some k) (hlocked : k.isLocked = true) :
    m.obstacle t = some (.mutex l) := by
  simp only [obstacle, hwanted, hlock, Option.any_some, hlocked, if_true]

theorem obstacle_of_idle (hcall : m.call? t = none) : m.obstacle t = none := by
  simp only [obstacle, wanted, hcall, Option.bind_none]

theorem obstacle_of_unwanting (hwanted : m.wanted t = none) (hcall : m.call? t = some call) :
    m.obstacle t = call.obstacle t m.store := by
  simp only [obstacle, hwanted, hcall, Option.bind_some]

/-- A thread stops in machine `m'` where it does in machine `m`. -/
structure StopsAs (m m' : Machine) (t : Tid) : Prop where
  isSome : m.calling t = true → (m.obstacle t).isSome = true
  obstacle : m'.obstacle t = m.obstacle t
  blocked : ∀ o, m.obstacle t = some o → o.isTimed = false →
    ∀ choice, (m'.advance t choice).2 = .blocked

/-- Two threads that want the same locked mutex stop there. -/
theorem StopsAs.of_wanted {k : LockState} (hwanted : m.wanted t = some l)
    (hwanted' : m'.wanted t = some l) (hlock : m.store.lock l = some k)
    (hlock' : m'.store.lock l = some k) (hlocked : k.isLocked = true) : m.StopsAs m' t where
  isSome _ := by rw [obstacle_of_locked hwanted hlock hlocked]; rfl
  obstacle := by
    rw [obstacle_of_locked hwanted hlock hlocked, obstacle_of_locked hwanted' hlock' hlocked]
  blocked _ _ _ := advance_of_wanted hwanted' hlock' hlocked

namespace Agrees

/-- The same threads are in calls. -/
theorem calling (h : m.Agrees chosen deadline m') (t : Tid) : m'.calling t = m.calling t := by
  rw [Machine.calling, Machine.calling, h.call?]
  cases m.call? t with
  | none => rfl
  | some call => rw [Option.map_some, Option.any_some, Option.any_some, Call.atBody_mirror]

/-- Where nothing can run, the mutexes are the same. -/
theorem lock_of_halted (h : m.Agrees chosen deadline m') (hregular : m.Regular)
    (hhalted : m.Halted) (l : LockRef) : m'.store.lock l = m.store.lock l := by
  refine h.store.locks l fun u hu => ?_
  rw [hregular.leaves_of_halted hhalted u] at hu
  cases hu

end Agrees

namespace Attends

variable {timeout : Option Duration} {wrap : WaitPhase → Call}
  {finish : Store → Bool → Progress Call Reply} {outer : List Call}

/-- A sleeper that nobody has woken, and its twin. -/
theorem stops_parked {own : Option Instant}
    (h : m.Attends m' chosen deadline t c l timeout wrap finish (.parked own) outer)
    (hcond : m.store.conds.get c = .fallback f) (hevents : f.events = .clear)
    (hchosen : chosen c = none) : m.StopsAs m' t := by
  have hcall' := call?_of_get h.get'
  obtain ⟨q, hq, -, hmem⟩ := h.agrees.queue hcond
  have hin : q.waiting t = true := by
    refine NativeQueue.waiting_iff.2 ⟨l, (hmem t l).2 ⟨⟨h.pends, ?_⟩, ?_⟩⟩
    · simp [hchosen]
    · rw [hevents]
      rfl
  have hobstacle : m.obstacle t = some (.condition c l timeout) := by
    rw [obstacle_of_unwanting (h.waiter.wanted h.call?) h.call?, h.waiter.obstacle]
    simp [WaitPhase.obstacle, hcond, hevents, EventFlags.clear, EventFlags.take?]
  have hobstacle' : m'.obstacle t = some (.condition c l timeout) := by
    rw [obstacle_of_unwanting (h.waiter.wanted hcall') hcall', h.waiter.obstacle]
    simp [WaitPhase.obstacle, FallbackWaitPhase.mirror, hq, hin]
  refine ⟨fun _ => by rw [hobstacle]; rfl, hobstacle'.trans hobstacle.symm, ?_⟩
  intro o ho htimed choice
  cases hobstacle.symm.trans ho
  -- without a timeout the twin has no deadline either
  have hnone : deadline t = none := h.punctual.2 (by simpa [Obstacle.isTimed] using htimed)
  have hget' := h.get'
  rw [advance_of_blocked hget']
  rw [h.waiter.step]
  simp [WaitPhase.step, FallbackWaitPhase.mirror, NativeWaitPhase.step, Store.withNative, hq, hin,
    hnone, Instant.reached, Progress.within]

/-- A thread that wants its mutex back, and its twin. -/
theorem stops_taking {me : ThreadId} {w : Option WakeEvent}
    (h : m.Attends m' chosen deadline t c l timeout wrap finish (.locking (.take me) w) outer)
    (hhalted : m.Halted) : m.StopsAs m' t := by
  have hcall' := call?_of_get h.get'
  have hinside : m.place c t ≠ .outside := by simp [h.place]
  have hblocked := step_of_blocked h.call? (hhalted t ⟨0, false⟩ (calling_of_place hinside))
  have hfits := (h.regular.holds l).grips t
  rw [(grip_of_waiting h.place h.regular.identified).1] at hfits
  obtain ⟨k, hlock, -⟩ := hfits
  have hlocked : k.isLocked = true := by
    by_contra hfree
    rw [h.waiter.step] at hblocked
    simp [WaitPhase.step, FallbackWaitPhase.step, LockPhase.step, Store.withLock, hlock, hfree,
      Progress.within] at hblocked
  exact .of_wanted (h.waiter.wanted h.call?) (h.waiter.wanted hcall') hlock
    ((h.agrees.lock_of_halted h.regular hhalted l).trans hlock) hlocked

end Attends

namespace Agrees

/-- A joint call and its twin stop at the same mutex, unless they run code of the client's. -/
theorem stops_joint (h : m.Agrees chosen deadline m') (hregular : m.Regular) (hready : m.Ready)
    (hhalted : m.Halted) (hcall : m.call? t = some call) (hjoint : call.isJoint = true) :
    m.StopsAs m' t := by
  have hcall' : m'.call? t = some call.onNative := by
    rw [h.call?, hcall, Option.map_some, Call.mirror_of_joint hjoint]
  have honces : m'.store.onces = m.store.onces := by
    obtain ⟨_, _, _, heq⟩ := h.store.rest
    rw [heq]
  have hwanted := wanted_onNative hcall hcall' honces
  have hon := h.plain t call (mem_of_call? hcall)
  -- in code of the library only a locked mutex stops a thread; code of the client's runs on
  cases hbody : call.atBody with
  | false =>
    obtain ⟨outer, hget⟩ := List.head?_eq_some_iff.1 hcall
    have hcalling : m.calling t = true := by
      rw [Machine.calling, hcall, Option.any_some, hbody]
      rfl
    have hblocked := step_of_blocked hcall (hhalted t ⟨0, false⟩ hcalling)
    obtain ⟨l, k, hwants, hlock, hlocked⟩ :=
      hregular.wanted_of_blocked hready hcall hon hjoint hbody hblocked
    exact .of_wanted hwants (hwanted.trans hwants) hlock
      ((h.lock_of_halted hregular hhalted l).trans hlock) hlocked
  | true =>
    have hnone : m.wanted t = none := by
      rw [wanted, hcall]
      unfold Call.atBody at hbody
      split at hbody <;> first | rfl | cases hbody
    have hobstacle (s : Store) : call.obstacle t s = none ∧ call.onNative.obstacle t s = none := by
      unfold Call.atBody at hbody
      split at hbody <;> first | exact ⟨rfl, rfl⟩ | cases hbody
    have hfree := (obstacle_of_unwanting hnone hcall).trans (hobstacle _).1
    refine ⟨fun hcalling => ?_, ?_, fun o ho => ?_⟩
    · rw [Machine.calling, hcall, Option.any_some, hbody] at hcalling
      cases hcalling
    · rw [hfree, obstacle_of_unwanting (hwanted.trans hnone) hcall']
      exact (hobstacle _).2
    · cases hfree.symm.trans ho

/-- The calls of the twin of a halted machine stop where those of the machine do. -/
theorem stops (h : m.Agrees chosen deadline m') (hregular : m.Regular) (hready : m.Ready)
    (hchooses : m.Chooses chosen) (hhalted : m.Halted) (t : Tid) : m.StopsAs m' t := by
  cases hget : m.calls.get t with
  | nil =>
    have hcall : m.call? t = none := by rw [Machine.call?, hget]; rfl
    have hcall' : m'.call? t = none := by rw [h.call?, hcall]; rfl
    refine ⟨fun hcalling => ?_, ?_, fun o ho => ?_⟩
    · rw [Machine.calling, hcall] at hcalling
      cases hcalling
    · rw [obstacle_of_idle hcall, obstacle_of_idle hcall']
    · cases (obstacle_of_idle hcall).symm.trans ho
  | cons call outer =>
    have hcall := call?_of_get hget
    cases hjoint : call.isJoint with
    | true => exact h.stops_joint hregular hready hhalted hcall hjoint
    | false =>
      -- the places that last in a halted machine are those of a sleeper and of one that takes its
      -- mutex back
      rcases Call.Waiter.exists_of_not_joint hjoint with ⟨c, e, p, rfl, hp⟩ |
        ⟨c, l, timeout, wrap, finish, p, hw, rfl⟩
      · have hcalls : m.Calls m' chosen deadline t c e p outer := ⟨h, hregular, hget, hp⟩
        obtain ⟨f, -, -, ⟨_, _, _, heq⟩ | ⟨_, _, _, _, heq⟩⟩ :=
          hregular.place_of_halted hhalted hcalls.place (by simp)
        · cases heq
        · cases heq
      · have hattends : m.Attends m' chosen deadline t c l timeout wrap finish p outer :=
          ⟨h, hregular, hw, hget⟩
        obtain ⟨f, hcond, hevents, ⟨_, _, own, heq⟩ | ⟨_, _, me, w, heq⟩⟩ :=
          hregular.place_of_halted hhalted hattends.place (by simp)
        · cases heq
          exact hattends.stops_parked hcond hevents
            (hchooses.eq_none (hregular.signalled_of_halted hhalted c))
        · cases heq
          exact hattends.stops_taking hhalted

/-- If nothing can run in a machine, then its twin stops where it does. -/
theorem haltsAs (h : m.Agrees chosen deadline m') (hregular : m.Regular) (hready : m.Ready)
    (hchooses : m.Chooses chosen) (hhalted : m.Halted) : m.HaltsAs m' where
  calling := h.calling
  isSome t := (h.stops hregular hready hchooses hhalted t).isSome
  obstacle t := (h.stops hregular hready hchooses hhalted t).obstacle
  blocked t := (h.stops hregular hready hchooses hhalted t).blocked

end Agrees

end Machine

end Interlock
