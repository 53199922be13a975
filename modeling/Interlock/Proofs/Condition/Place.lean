import Interlock.Proofs.Ownership

/-!
# Threads at a portable condition variable

Where every thread is in a wait, a signal or a broadcast of one portable condition variable, and
everything that a step can do to both.

  * `Place`: outside, or in a phase of a wakeup or a wait; `Call.place` reads it off a call;
  * `Fallback.Turn`: the steps that change nothing but one place and the state of the condition
    variable, each with what it has seen;
  * `Fallback.Fault`: the internal checks that fail, and where;
  * `Machine.Change.turns`: a move of the machine is a turn of one thread, unless an internal check
    fails; the places of the other threads do not change.

Nothing is said yet about which states and places go together; so the turns are those of any
interleaving of the phases' code, reachable or not.

The code of waits and wakeups is gone through here, once. Each step is given a name among the turns,
with what it has read as its hypotheses; the invariants of a condition variable are proved of turns,
and a change to the code that leaves the turns as they are does not concern them.
-/

namespace Interlock

/-! ## Places

A place is as much of a thread's calls as its condition variable can tell: which wakeup or wait it
is in and the phase of that. Everything outside of the protocol is one place, a native wait
included. -/

/-- Where a thread is at a portable condition variable. -/
inductive Place where
  | outside
  | waking (event : WakeEvent) (p : WakeupPhase)
  | waiting (l : LockRef) (timeout : Option Duration) (p : FallbackWaitPhase)
  deriving DecidableEq

instance : Inhabited Place := ⟨.outside⟩

def WakeupPhase.place (event : WakeEvent) : WakeupPhase → Place
  | entry | notify => .outside
  | p => .waking event p

def WaitPhase.place (l : LockRef) (timeout : Option Duration) : WaitPhase → Place
  | fallback p => .waiting l timeout p
  | _ => .outside

def WaitWhilePhase.place (l : LockRef) : WaitWhilePhase → Place
  | waiting _ rest p => p.place l rest
  | _ => .outside

/-- Where a call is at condition variable `c`. -/
def Call.place (c : CondRef) : Call → Place
  | wakeup d event p => if d = c then p.place event else .outside
  | wait d l timeout p => if d = c then p.place l timeout else .outside
  | waitWhile d l _ p => if d = c then p.place l else .outside
  | _ => .outside

/-- A calm call is outside of every condition variable. -/
theorem Call.Calm.place {call : Call} (h : call.Calm) (c : CondRef) : call.place c = .outside := by
  cases h with
  | fresh h =>
    cases call <;> simp only [Call.isFresh, beq_iff_eq, Bool.false_eq_true] at h <;>
      first | rfl | (subst h; exact ite_self _)
  | body h =>
    unfold Call.atBody at h
    split at h <;> first | rfl | exact ite_self _ | simp at h
  | @resumed call e h =>
    unfold Call.atBody at h
    split at h <;> first
      | rfl
      | (rcases e with ⟨_ | _⟩ | _ <;> exact ite_self _)
      | simp at h

/-! ## Turns

A turn has what it needs in its hypotheses (a permit that the gate has, an event that is set, room
in the word) and its effect in its indices. It is the interface of the protocol: the invariant in
`Cycle` is proved from the turns alone, and the code is not looked at again. -/

namespace Fallback

/-- The state after a sleeper has deregistered, with the mode if it consumed that. -/
def without (f : Fallback) (wokenBy : Option WakeEvent) : Fallback :=
  { f with word := f.word - FallbackWaitPhase.share wokenBy }

/-- The steps of one thread at a portable condition variable. -/
inductive Turn : Fallback → Place → Fallback → Place → Prop
  /-- Something else happens. -/
  | idle {f : Fallback} {p : Place} : Turn f p f p
  /-- A signal or a broadcast begins, a wait begins. -/
  | beginWakeup {f : Fallback} {e : WakeEvent} : Turn f .outside f (.waking e .enter)
  | beginWait {f : Fallback} {l : LockRef} {d : Option Duration} :
    Turn f .outside f (.waiting l d .enter)
  -- a signal or a broadcast
  | enterWakeup {f : Fallback} {e : WakeEvent} {gate : Permits} (hgate : f.gate.take? = some gate) :
    Turn f (.waking e .enter) { f with gate := gate } (.waking e .publish)
  | publish {f : Fallback} {e : WakeEvent} (hmode : f.mode = 0) (hsleepers : 0 < f.sleepers) :
    Turn f (.waking e .publish) { f with word := f.word + modeOf e } (.waking e .raise)
  | publishAlone {f : Fallback} {e : WakeEvent} (hmode : f.mode = 0) (hsleepers : f.sleepers = 0) :
    Turn f (.waking e .publish) { f with word := f.word + modeOf e } (.waking e .retract)
  | raise {f : Fallback} {e : WakeEvent} :
    Turn f (.waking e .raise) { f with events := f.events.put true e } .outside
  | retractAlone {f : Fallback} {e : WakeEvent} :
    Turn f (.waking e .retract) { f with word := modeNone } (.waking e .reopen)
  | reopenAlone {f : Fallback} {e : WakeEvent} {gate : Permits} (hgate : f.gate.put? = some gate) :
    Turn f (.waking e .reopen) { f with gate := gate } .outside
  -- a wait: registration
  | enterWait {f : Fallback} {l : LockRef} {d : Option Duration} {gate : Permits}
    (hgate : f.gate.take? = some gate) :
    Turn f (.waiting l d .enter) { f with gate := gate } (.waiting l d .register)
  | register {f : Fallback} {l : LockRef} {d : Option Duration} (hmode : f.mode = 0)
    (hroom : f.sleepers + 1 ≠ sleepersLimit) :
    Turn f (.waiting l d .register) { f with word := f.word + 1 } (.waiting l d .handBack)
  | handBack {f : Fallback} {l : LockRef} {d : Option Duration} {gate : Permits}
    (hgate : f.gate.put? = some gate) :
    Turn f (.waiting l d .handBack) { f with gate := gate } (.waiting l d (.unlocking .entry))
  | unlock {f : Fallback} {l : LockRef} {d : Option Duration} {p p' : UnlockPhase} :
    Turn f (.waiting l d (.unlocking p)) f (.waiting l d (.unlocking p'))
  | unlocked {f : Fallback} {l : LockRef} {d : Option Duration} {p : UnlockPhase} :
    Turn f (.waiting l d (.unlocking p)) f (.waiting l d .listen)
  -- a wait: the events
  | listen {f : Fallback} {l : LockRef} {d : Option Duration} {deadline : Option Instant}
    (htimed : deadline.isSome = true → d.isSome = true) :
    Turn f (.waiting l d .listen) f (.waiting l d (.parked deadline))
  | wake {f : Fallback} {l : LockRef} {d : Option Duration} {deadline : Option Instant}
    {e : WakeEvent} {events : EventFlags} (hevents : f.events.take? = some (e, events)) :
    Turn f (.waiting l d (.parked deadline)) { f with events := events }
      (.waiting l d (.depart (some e)))
  | expire {f : Fallback} {l : LockRef} {d : Option Duration} {deadline : Option Instant}
    (hevents : f.events.take? = none) (htimed : deadline.isSome = true) :
    Turn f (.waiting l d (.parked deadline)) f (.waiting l d (.depart none))
  -- a wait: departure
  | departOne {f : Fallback} {l : LockRef} {d : Option Duration}
    (hmode : (f.without (some .one)).mode = 0) :
    Turn f (.waiting l d (.depart (some .one))) (f.without (some .one))
      (.waiting l d (.reopen (some .one)))
  | departTimed {f : Fallback} {l : LockRef} {d : Option Duration} (htimed : d.isSome = true)
    (hlast : ∀ e, (f.without none).mode = (modeOf e).toNat → (f.without none).sleepers ≠ 0) :
    Turn f (.waiting l d (.depart none)) (f.without none) (.waiting l d (.locking .entry none))
  | departLast {f : Fallback} {l : LockRef} {d : Option Duration} {e : WakeEvent}
    (hmode : (f.without none).mode = (modeOf e).toNat) (hlast : (f.without none).sleepers = 0) :
    Turn f (.waiting l d (.depart none)) (f.without none) (.waiting l d (.await e))
  | departAll {f : Fallback} {l : LockRef} {d : Option Duration}
    (hmode : (f.without (some .all)).mode = modeAll.toNat)
    (hlast : (f.without (some .all)).sleepers ≠ 0) :
    Turn f (.waiting l d (.depart (some .all))) (f.without (some .all))
      (.waiting l d (.locking .entry (some .all)))
  | departAllLast {f : Fallback} {l : LockRef} {d : Option Duration}
    (hmode : (f.without (some .all)).mode = modeAll.toNat)
    (hlast : (f.without (some .all)).sleepers = 0) :
    Turn f (.waiting l d (.depart (some .all))) (f.without (some .all))
      (.waiting l d (.lower (some .all)))
  -- a wait: the last sleeper cleans up
  | awaitOne {f : Fallback} {l : LockRef} {d : Option Duration} {events : EventFlags}
    (hevents : f.events.take? = some (.one, events)) :
    Turn f (.waiting l d (.await .one)) { f with events := events } (.waiting l d (.retract none))
  | awaitAll {f : Fallback} {l : LockRef} {d : Option Duration} {events : EventFlags}
    (hevents : f.events.take? = some (.all, events)) :
    Turn f (.waiting l d (.await .all)) { f with events := events } (.waiting l d (.lower none))
  | lower {f : Fallback} {l : LockRef} {d : Option Duration} {w : Option WakeEvent} :
    Turn f (.waiting l d (.lower w)) { f with events := f.events.put false .all }
      (.waiting l d (.retract w))
  | retract {f : Fallback} {l : LockRef} {d : Option Duration} {w : Option WakeEvent} :
    Turn f (.waiting l d (.retract w)) { f with word := modeNone } (.waiting l d (.reopen w))
  | reopen {f : Fallback} {l : LockRef} {d : Option Duration} {w : Option WakeEvent}
    {gate : Permits} (hgate : f.gate.put? = some gate) :
    Turn f (.waiting l d (.reopen w)) { f with gate := gate } (.waiting l d (.locking .entry w))
  | lock {f : Fallback} {l : LockRef} {d : Option Duration} {w : Option WakeEvent}
    {p p' : LockPhase} : Turn f (.waiting l d (.locking p w)) f (.waiting l d (.locking p' w))
  | locked {f : Fallback} {l : LockRef} {d : Option Duration} {w : Option WakeEvent}
    {p : LockPhase} : Turn f (.waiting l d (.locking p w)) f .outside

/-- The internal checks that fail. -/
inductive Fault : Fallback → Place → Prop
  | wakeupOverlap {f : Fallback} {e : WakeEvent} (hmode : f.mode ≠ 0) : Fault f (.waking e .publish)
  | overReopenAlone {f : Fallback} {e : WakeEvent} (hgate : f.gate.put? = none) :
    Fault f (.waking e .reopen)
  | registeredDuringWakeup {f : Fallback} {l : LockRef} {d : Option Duration} (hmode : f.mode ≠ 0) :
    Fault f (.waiting l d .register)
  | tooManySleepers {f : Fallback} {l : LockRef} {d : Option Duration}
    (hroom : f.sleepers + 1 = sleepersLimit) : Fault f (.waiting l d .register)
  | overHandBack {f : Fallback} {l : LockRef} {d : Option Duration} (hgate : f.gate.put? = none) :
    Fault f (.waiting l d .handBack)
  | wrongSingleWakeup {f : Fallback} {l : LockRef} {d : Option Duration}
    (hmode : (f.without (some .one)).mode ≠ 0) : Fault f (.waiting l d (.depart (some .one)))
  | unwoken {f : Fallback} {l : LockRef} (d : Option Duration) (htimed : d.isSome = false) :
    Fault f (.waiting l d (.depart none))
  | wrongBroadcast {f : Fallback} {l : LockRef} {d : Option Duration}
    (hmode : (f.without (some .all)).mode ≠ modeAll.toNat) :
    Fault f (.waiting l d (.depart (some .all)))
  | unexpectedEvent {f : Fallback} {l : LockRef} {d : Option Duration} {e got : WakeEvent}
    {events : EventFlags} (hevents : f.events.take? = some (got, events)) (hgot : got ≠ e) :
    Fault f (.waiting l d (.await e))
  | overReopen {f : Fallback} {l : LockRef} {d : Option Duration} {w : Option WakeEvent}
    (hgate : f.gate.put? = none) : Fault f (.waiting l d (.reopen w))

end Fallback

/-- A step at a condition variable, whatever it is made of. Nobody is inside one that is not
portable. -/
inductive Condition.Turn : Condition → Place → Condition → Place → Prop
  | portable {f f' : Fallback} {p p' : Place} (h : f.Turn p f' p') :
    Turn (.fallback f) p (.fallback f') p'
  | other {cond cond' : Condition} {p p' : Place} (hcond : ∀ f, cond ≠ .fallback f)
    (hcond' : ∀ f, cond' ≠ .fallback f) (hp : p = .outside → p' = .outside) : Turn cond p cond' p'
  | init {backend : Backend} : Turn .raw .outside (.new backend) .outside

/-- A step that does nothing to the condition variable and leaves its thread where it is. -/
theorem Condition.Turn.idle (cond : Condition) (p : Place) : cond.Turn p cond p := by
  cases cond with
  | fallback f => exact .portable .idle
  | raw => exact .other (by simp) (by simp) id
  | native q => exact .other (by simp) (by simp) id

/-! ## Steps of calls

Each phase of a wakeup or of a wait is checked against the turns: a step is a turn, or an internal
check fails. The one thing that a wait does besides is to unlock and lock the caller's mutex, whose
own checks are taken to succeed here (`Store.Releases`); that the thread holds the mutex when it
gives it up is shown elsewhere. -/

variable {φ ψ ρ τ : Type} {t : Tid} {s s' : Store} {c : CondRef} {p p' : Place} {f f' : Fallback}

/-- A step at condition variable `c`; it leaves the others alone. -/
structure Store.Turns (c : CondRef) (s : Store) (p : Place) (s' : Store) (p' : Place) : Prop where
  turn : (s.conds.get c).Turn p (s'.conds.get c) p'
  others : ∀ d, d ≠ c → s'.conds.get d = s.conds.get d

theorem Store.Turns.of_same (hturn : (s.conds.get c).Turn p (s.conds.get c) p')
    (hconds : s'.conds = s.conds := by rfl) : s.Turns c p s' p' :=
  ⟨by rwa [hconds], fun d _ => by rw [hconds]⟩

theorem Store.Turns.of_idle (hconds : s'.conds = s.conds := by rfl) : s.Turns c p s' p :=
  .of_same (.idle _ _) hconds

theorem Store.Turns.of_write {cond : Condition} (hturn : (s.conds.get c).Turn p cond p')
    (hconds : s'.conds = s.conds.set c cond := by rfl) : s.Turns c p s' p' where
  turn := by rwa [hconds, Table.get_set_self]
  others d hd := by rw [hconds, Table.get_set_of_ne _ _ hd]

/-- A step that fails: a check of the call fails outside, or an internal one inside. -/
def Store.FaultsAt (c : CondRef) (s : Store) (p : Place) (s' : Store) : Prop :=
  p = .outside ∧ s'.conds.get c = s.conds.get c ∨ ∃ f, s.conds.get c = .fallback f ∧ f.Fault p

/-- The same; it leaves the other condition variables alone. -/
structure Store.Faults (c : CondRef) (s : Store) (p : Place) (s' : Store) : Prop where
  fault : s.FaultsAt c p s'
  others : ∀ d, d ≠ c → s'.conds.get d = s.conds.get d

theorem Store.Faults.of_outside (hconds : s'.conds = s.conds := by rfl) :
    s.Faults c .outside s' :=
  ⟨.inl ⟨rfl, by rw [hconds]⟩, fun d _ => by rw [hconds]⟩

/-- The checks of the caller's mutex do not fail for thread `t` in the middle of a wait. -/
def Store.Releases (t : Tid) (s : Store) : Place → Prop
  | .waiting l _ (.unlocking p) => (p.step t l s).Succeeds
  | .waiting l _ (.locking p _) => (p.step t l s).Succeeds
  | _ => True

/-- The same for every way a step can go, by the places of its phases; at its end the thread is
outside. -/
def Progress.Turns (c : CondRef) (s : Store) (p : Place) (place : φ → Place) :
    Progress φ ρ → Prop :=
  Meets (fun s' phase => s.Turns c p s' (place phase)) (fun s' _ => s.Turns c p s' .outside)
    (s.Faults c p)

/-- A whole takes the turns that its part takes. -/
theorem Progress.Turns.within {place : φ → Place} {step : Progress φ ρ}
    (h : step.Turns c s p place) {wrap : φ → ψ} {finish : Store → ρ → Progress ψ τ}
    {place' : ψ → Place} (hwrap : ∀ phase, place' (wrap phase) = place phase)
    (hfinish : ∀ s' reply, s.Turns c p s' .outside → (finish s' reply).Turns c s p place') :
    (step.within wrap finish).Turns c s p place' :=
  Meets.within h (fun _ phase hs => (hwrap phase).symm ▸ hs) hfinish (fun _ hs => hs)

/-- Inside, the condition variable is portable; what a step does with another one is not said. -/
theorem Progress.Turns.withFallback {place : φ → Place} {step : Fallback → Progress φ ρ}
    (h : ∀ f, s.conds.get c = .fallback f → (step f).Turns c s p place) :
    (s.withFallback c step).Turns c s p place := by
  unfold Store.withFallback
  split
  · exact h _ ‹_›
  · trivial

theorem Store.Turns.of_fallback {f f' : Fallback} (hc : s.conds.get c = .fallback f)
    (h : f.Turn p f' p') (hconds : s'.conds = s.conds.set c (.fallback f') := by rfl) :
    s.Turns c p s' p' :=
  .of_write (hc ▸ .portable h) hconds

theorem Store.Turns.of_seen {f : Fallback} (hc : s.conds.get c = .fallback f) (h : f.Turn p f p')
    (hconds : s'.conds = s.conds := by rfl) : s.Turns c p s' p' :=
  .of_same (hc ▸ .portable h) hconds

/-- An internal check that fails. -/
theorem Store.Faults.of_fallback {f : Fallback} (hc : s.conds.get c = .fallback f)
    (h : f.Fault p)
    (hothers : ∀ d, d ≠ c → s'.conds.get d = s.conds.get d := by
      first
        | exact fun _ _ => rfl
        | exact fun _ hd => Table.get_set_of_ne _ _ hd) : s.Faults c p s' :=
  ⟨.inr ⟨f, hc, h⟩, hothers⟩

/-- Every step of a wakeup is a turn. -/
theorem WakeupPhase.step_turns {event : WakeEvent} {choice : Choice} (p : WakeupPhase) :
    (p.step c event choice s).Turns c s (p.place event) (place event) := by
  cases p with
  | entry =>
    simp only [step, Store.violate]
    split
    · exact .of_outside
    · exact .of_idle
    · exact .of_seen ‹_› .beginWakeup
  | notify =>
    simp only [step, Store.withNative]
    split
    · have hother {q' : NativeQueue} : (s.conds.get c).Turn .outside (.native q') .outside :=
        .other (by simp [‹s.conds.get c = _›]) (by simp) id
      split <;> exact .of_write hother
    · trivial
  | enter =>
    apply Progress.Turns.withFallback
    intro f hf
    split
    · exact .of_fallback hf (.enterWakeup ‹_›)
    · trivial
  | publish =>
    apply Progress.Turns.withFallback
    intro f hf
    dsimp only
    split
    · exact .of_fallback hf (.wakeupOverlap ‹_›)
    · -- no other wakeup is under way, as the mode is clear
      have hmode : f.mode = 0 := Decidable.not_not.1 ‹_›
      split
      · exact .of_fallback hf (.publish hmode ‹_›)
      · exact .of_fallback hf (.publishAlone hmode (Nat.eq_zero_of_not_pos ‹_›))
  | raise =>
    apply Progress.Turns.withFallback
    intro f hf
    exact .of_fallback hf .raise
  | retract =>
    apply Progress.Turns.withFallback
    intro f hf
    exact .of_fallback hf .retractAlone
  | reopen =>
    apply Progress.Turns.withFallback
    intro f hf
    split
    · exact .of_fallback hf (.reopenAlone ‹_›)
    · exact .of_fallback hf (.overReopenAlone ‹_›)

/-- Only a timeout gives a deadline. -/
theorem Instant.timed_of_deadline {now : Instant} {timeout : Option Duration}
    (h : (now.deadline timeout).isSome = true) : timeout.isSome = true := by
  cases timeout with
  | none => exact h
  | some d => rfl

/-- Only a deadline is reached. -/
theorem Instant.isSome_of_reached {now : Instant} {deadline : Option Instant}
    (h : now.reached deadline = true) : deadline.isSome = true := by
  cases deadline with
  | none => cases h
  | some d => rfl

/-- A step of a thread inside that leaves the condition variable alone. -/
theorem Store.Turns.of_drift (h : ∀ f : Fallback, f.Turn p f p') (hp : p ≠ .outside)
    (hconds : s'.conds = s.conds := by rfl) : s.Turns c p s' p' := by
  refine .of_same ?_ hconds
  cases s.conds.get c with
  | fallback f => exact .portable (h f)
  | raw => exact .other (by simp) (by simp) fun heq => absurd heq hp
  | native q => exact .other (by simp) (by simp) fun heq => absurd heq hp

theorem LockPhase.step_conds {l : LockRef} (p : LockPhase) :
    (p.step t l s).Keeps (·.conds = s.conds) := by
  cases p <;> simp only [step, Store.violate, Store.withLock] <;> (repeat' split) <;>
    first | exact trivial | rfl

theorem UnlockPhase.step_conds {l : LockRef} (p : UnlockPhase) :
    (p.step t l s).Keeps (·.conds = s.conds) := by
  cases p <;> simp only [step, Store.violate, Store.withLock] <;> (repeat' split) <;>
    first | exact trivial | rfl

/-- What a thread does next depends on what its departure leaves in the word. -/
theorem FallbackWaitPhase.afterDeparture_turns {l : LockRef} {timeout : Option Duration}
    {f : Fallback} (hf : s.conds.get c = .fallback f) (wokenBy : Option WakeEvent) :
    (afterDeparture timeout.isSome wokenBy (f.without wokenBy).mode (f.without wokenBy).sleepers
      (s.setCond c (.fallback (f.without wokenBy)))).Turns c s
        (.waiting l timeout (.depart wokenBy)) (.waiting l timeout) := by
  cases wokenBy with
  | none =>
    simp only [afterDeparture, Store.violate]
    split
    · rename_i hlast
      exact .of_fallback hf (.departLast (e := .one) hlast.1 hlast.2)
    · split
      · rename_i hlast
        exact .of_fallback hf (.departLast (e := .all) hlast.1 hlast.2)
      · split
        · -- neither of the two tests for a last sleeper has succeeded
          refine .of_fallback hf (.departTimed ‹_› ?_)
          intro e hmode hlast
          cases e
          · exact ‹¬ (_ = Fallback.modeOne.toNat ∧ _)› ⟨hmode, hlast⟩
          · exact ‹¬ (_ = Fallback.modeAll.toNat ∧ _)› ⟨hmode, hlast⟩
        · exact .of_fallback hf (.unwoken timeout (by simpa using ‹¬ timeout.isSome = true›))
  | some e =>
    cases e with
    | one =>
      simp only [afterDeparture, Store.violate]
      split
      · exact .of_fallback hf (.departOne ‹_›)
      · exact .of_fallback hf (.wrongSingleWakeup ‹_›)
    | all =>
      simp only [afterDeparture, Store.violate]
      split
      · split
        · exact .of_fallback hf (.departAllLast ‹_› ‹_›)
        · exact .of_fallback hf (.departAll ‹_› ‹_›)
      · exact .of_fallback hf (.wrongBroadcast ‹_›)

/-- Every step of a portable wait is a turn. -/
theorem FallbackWaitPhase.step_turns {l : LockRef} {timeout : Option Duration}
    (p : FallbackWaitPhase) (hmutex : s.Releases t (.waiting l timeout p)) :
    (p.step t c l timeout s).Turns c s (.waiting l timeout p) (.waiting l timeout) := by
  -- every branch of the step is a constructor of the turn or of the failed check
  cases p with
  | enter =>
    apply Progress.Turns.withFallback
    intro f hf
    split
    · exact .of_fallback hf (.enterWait ‹_›)
    · trivial
  | register =>
    apply Progress.Turns.withFallback
    intro f hf
    dsimp only
    split
    · exact .of_fallback hf (.registeredDuringWakeup ‹_›)
    · split
      · exact .of_fallback hf (.tooManySleepers ‹_›)
      · exact .of_fallback hf (.register (Decidable.not_not.1 ‹_›) ‹_›)
  | handBack =>
    apply Progress.Turns.withFallback
    intro f hf
    split
    · exact .of_fallback hf (.handBack ‹_›)
    · exact .of_fallback hf (.overHandBack ‹_›)
  | unlocking p =>
    refine (Progress.Meets.and p.step_conds hmutex).within ?_ ?_ ?_
    · intro s' p' hs
      exact .of_drift (fun _ => .unlock) (by simp) hs.1
    · intro s' reply hs
      exact .of_drift (fun _ => .unlocked) (by simp) hs.1
    · intro s' hs
      exact hs.2.elim
  | listen =>
    refine .of_drift (fun _ => .listen ?_) (by simp)
    intro hdeadline
    simpa using Instant.timed_of_deadline hdeadline
  | parked deadline =>
    apply Progress.Turns.withFallback
    intro f hf
    split
    · exact .of_fallback hf (.wake ‹_›)
    · split
      · exact .of_seen hf (.expire ‹_› (Instant.isSome_of_reached ‹_›))
      · trivial
  | depart wokenBy =>
    apply Progress.Turns.withFallback
    intro f hf
    exact afterDeparture_turns hf wokenBy
  | await event =>
    apply Progress.Turns.withFallback
    intro f hf
    split
    · rename_i got events hevents
      split
      · subst got
        cases event
        · exact .of_fallback hf (.awaitOne hevents)
        · exact .of_fallback hf (.awaitAll hevents)
      · exact .of_fallback hf (.unexpectedEvent hevents ‹_›)
    · trivial
  | lower wokenBy =>
    apply Progress.Turns.withFallback
    intro f hf
    exact .of_fallback hf .lower
  | retract wokenBy =>
    apply Progress.Turns.withFallback
    intro f hf
    exact .of_fallback hf .retract
  | reopen wokenBy =>
    apply Progress.Turns.withFallback
    intro f hf
    split
    · exact .of_fallback hf (.reopen ‹_›)
    · exact .of_fallback hf (.overReopen ‹_›)
  | locking p wokenBy =>
    refine (Progress.Meets.and p.step_conds hmutex).within ?_ ?_ ?_
    · intro s' p' hs
      exact .of_drift (fun _ => .lock) (by simp) hs.1
    · intro s' reply hs
      exact .of_drift (fun _ => .locked) (by simp) hs.1
    · intro s' hs
      exact hs.2.elim

/-- The phases of a wait on the platform's condition variable never meet a portable one. -/
theorem NativeWaitPhase.step_turns {l : LockRef} {timeout : Option Duration}
    (p : NativeWaitPhase) : (p.step t c l timeout s).Turns c s .outside fun _ => .outside := by
  have hother {q q' : NativeQueue} (hq : s.conds.get c = .native q) :
      (s.conds.get c).Turn .outside (.native q') .outside := .other (by simp [hq]) (by simp) id
  cases p with
  | enqueue me =>
    simp only [step, Store.withNative, Store.withLock]
    (repeat' split) <;> first | trivial | exact .of_idle | exact .of_write (hother ‹_›)
  | queued me deadline =>
    simp only [step, Store.withNative]
    (repeat' split) <;> first | trivial | exact .of_idle | exact .of_write (hother ‹_›)
  | _ =>
    simp only [step, Store.violate, Store.withLock]
    (repeat' split) <;> first | trivial | exact .of_idle | exact .of_outside

-- so whoever waits there is outside
example : (Call.wait 0 0 none (.native .entry)).place 0 = .outside := by decide +kernel

/-- A wait is outside during its checks, and then where its backend is. -/
theorem WaitPhase.step_turns {l : LockRef} {timeout : Option Duration} (p : WaitPhase)
    (hmutex : s.Releases t (p.place l timeout)) :
    (p.step t c l timeout s).Turns c s (p.place l timeout) (place l timeout) := by
  cases p with
  | entry =>
    simp only [step, Store.violate]
    split
    · exact .of_idle
    · exact .of_outside
  | identify =>
    simp only [step, Store.violate]
    split
    · exact .of_outside
    · exact .of_idle
  | check me =>
    simp only [step, Store.violate, Store.withLock]
    split
    · split
      · exact .of_outside
      · split
        · trivial
        · exact .of_idle
        · exact .of_seen ‹_› .beginWait
    · trivial
  | native p => exact p.step_turns.within (fun _ => rfl) fun _ _ hs => hs
  | fallback p => exact (p.step_turns hmutex).within (fun _ => rfl) fun _ _ hs => hs

/-- A loop is where its wait is, and outside otherwise. -/
theorem WaitWhilePhase.step_turns {l : LockRef} {timeout : Option Duration} (p : WaitWhilePhase)
    (hmutex : s.Releases t (p.place l)) :
    (p.step t c l timeout s).Turns c s (p.place l) (place l) := by
  cases p with
  | waiting start rest p => exact (p.step_turns hmutex).within (fun _ => rfl) fun _ _ hs => hs
  | _ =>
    simp only [step]
    (repeat' split) <;> first | trivial | exact .of_idle | exact .of_outside

/-! ## Moves

From the steps of calls to the moves of the machine, along the usual path: a place is a view of the
innermost calls, so it changes for one thread, as the step of that thread's call says. -/

/-- What a step of a call does to condition variable `c` and to its thread's place there. -/
def Progress.TurnsAt (c : CondRef) (s : Store) (p : Place) : Progress Call Reply → Prop :=
  Meets (fun s' call => (s.conds.get c).Turn p (s'.conds.get c) (call.place c))
    (fun s' _ => (s.conds.get c).Turn p (s'.conds.get c) .outside) (s.FaultsAt c p)

/-- A step at one condition variable, seen from any of them. -/
theorem Progress.Turns.turnsAt {d : CondRef} {place : φ → Place} {step : Progress φ ρ}
    (h : step.Turns d s p place) {call : φ → Call} {reply : ρ → Reply}
    (hcall : ∀ phase, (call phase).place c = if d = c then place phase else .outside) :
    (Call.lift call reply step).TurnsAt c s (if d = c then p else .outside) := by
  -- seen from another condition variable nothing has happened
  have hturn {s' : Store} {p' : Place} (hs : s.Turns d p s' p') :
      (s.conds.get c).Turn (if d = c then p else .outside) (s'.conds.get c)
        (if d = c then p' else .outside) := by
    split
    · subst d
      exact hs.turn
    · rw [hs.others c (Ne.symm ‹_›)]
      exact .idle _ _
  have hlast {s' : Store} (hs : s.Turns d p s' .outside) := ite_self Place.outside ▸ hturn hs
  have hfault {s' : Store} (hs : s.Faults d p s') :
      s.FaultsAt c (if d = c then p else .outside) s' := by
    split
    · subst d
      exact hs.fault
    · exact .inl ⟨rfl, hs.others c (Ne.symm ‹_›)⟩
  cases step with
  | next s' phase =>
    change (s.conds.get c).Turn _ _ ((call phase).place c)
    rw [hcall phase]
    exact hturn h
  | done s' reply' => exact hlast h
  | fault s' why => exact hfault h
  | blocked => trivial
  | abort s' => exact hfault h

/-- A step that writes no condition variable, of a call that is outside of this one. -/
theorem Progress.Keeps.turnsAt {step : Progress Call Reply} (h : step.Keeps (·.conds = s.conds))
    (hstep : ∀ s' call, step = .next s' call → call.place c = .outside) :
    step.TurnsAt c s .outside := by
  have hidle {s' : Store} (hs : s'.conds = s.conds) :
      (s.conds.get c).Turn .outside (s'.conds.get c) .outside := by
    rw [hs]
    exact .idle _ _
  cases step with
  | next s' call =>
    change (s.conds.get c).Turn _ _ (call.place c)
    rw [hstep s' call rfl]
    exact hidle h
  | done s' reply => exact hidle h
  | fault s' why => exact .inl ⟨rfl, congrArg (Table.get · c) h⟩
  | blocked => trivial
  | abort s' => exact .inl ⟨rfl, congrArg (Table.get · c) h⟩

/-- A scope works on no condition variable. -/
theorem ScopePhase.step_conds {l : LockRef} (p : ScopePhase) :
    (p.step t l s).Keeps (·.conds = s.conds) := by
  cases p with
  | locking p => exact p.step_conds.within fun _ _ hs => hs
  | body => trivial
  | unlocking p pending =>
    exact (p.step_conds.whileUnwinding pending).within fun _ reply hs => .passOn hs reply pending

/-- Nor does an unlocked section. -/
theorem UnlockedPhase.step_conds {l : LockRef} (p : UnlockedPhase) :
    (p.step t l s).Keeps (·.conds = s.conds) := by
  cases p with
  | unlocking p => exact p.step_conds.within fun _ _ hs => hs
  | body => trivial
  | relocking p pending =>
    exact (p.step_conds.whileUnwinding pending).within fun _ reply hs => .passOn hs reply pending

/-- Nor does a run-once gate. -/
theorem OncePhase.step_conds {o : OnceRef} (p : OncePhase) :
    (p.step t o s).Keeps (·.conds = s.conds) := by
  cases p with
  | locking p => exact p.step_conds.within fun _ _ hs => hs
  | callback => trivial
  | unlocking p finish =>
    exact (p.step_conds.whileUnwinding finish.panic?).within fun _ _ hs =>
      .passOn hs _ finish.panic?
  | _ =>
    simp only [step]
    (repeat' split) <;> rfl

/-- A call is outside of a condition variable that it does not work on. -/
theorem Call.place_of_not_mem {call : Call} (h : .condition c ∉ call.objects s) :
    call.place c = .outside := by
  cases call <;> first
    | rfl
    | (simp only [objects, List.mem_cons, List.not_mem_nil, Object.condition.injEq, reduceCtorEq,
        or_false] at h
       exact if_neg (Ne.symm h))

/-- A call that works on no condition variable leaves them all as they are. -/
theorem Call.step_conds {choice : Choice} {call : Call}
    (hobjects : ∀ c, .condition c ∉ call.objects s)
    (hdestroy : ∀ o unwinding, call ≠ .destroy o unwinding) :
    (call.step t choice s).Keeps (·.conds = s.conds) := by
  cases call with
  | wakeup c event p | wait c l timeout p | waitWhile c l timeout p | initCond c backend =>
    exact absurd List.mem_cons_self (hobjects c)
  | destroy o unwinding => exact absurd rfl (hdestroy o unwinding)
  | lock l p => exact p.step_conds.within fun _ _ hs => hs
  | unlock l p => exact p.step_conds.within fun _ _ hs => hs
  | scope l p => exact p.step_conds.within fun _ _ hs => hs
  | unlocked l p => exact p.step_conds.within fun _ _ hs => hs
  | once o p => exact p.step_conds.within fun _ _ hs => hs
  | initMutex l =>
    simp only [step, single, initMutexStep, Store.violate]
    split <;> rfl
  | _ => exact (step_aside rfl).imp fun _ hs => hs.2

/-- What a step of any call but a destruction does to a condition variable. -/
theorem Call.step_turns {choice : Choice} (c : CondRef) {call : Call}
    (hmutex : ∀ d, s.Releases t (call.place d))
    (hdestroy : ∀ o unwinding, call ≠ .destroy o unwinding) :
    (call.step t choice s).TurnsAt c s (call.place c) := by
  -- a call that works on no condition variable is outside of this one before and after
  have houtside {call : Call} (hobjects : ∀ d, .condition d ∉ call.objects s)
      (hdestroy : ∀ o unwinding, call ≠ .destroy o unwinding) :
      (call.step t choice s).TurnsAt c s .outside := by
    refine (step_conds hobjects hdestroy).turnsAt ?_
    intro s' call' hnext
    apply place_of_not_mem (s := s)
    rw [← objects_origin, origin_of_step hnext, objects_origin]
    exact hobjects c
  cases call with
  | wakeup d event p => exact p.step_turns.turnsAt fun _ => rfl
  | wait d l timeout p =>
    exact (p.step_turns (by simpa [place] using hmutex d)).turnsAt fun _ => rfl
  | waitWhile d l timeout p =>
    exact (p.step_turns (by simpa [place] using hmutex d)).turnsAt fun _ => rfl
  | initCond d backend =>
    simp only [step, single, initCondStep, Store.violate]
    split
    · exact .inl ⟨rfl, rfl⟩
    · by_cases hd : c = d
      · subst d
        have hraw : s.conds.get c = .raw := by
          cases hcond : s.conds.get c <;> simp_all [Condition.isInitialized, Condition.backend?]
        change (s.conds.get c).Turn .outside ((s.conds.set c _).get c) .outside
        rw [hraw, Table.get_set_self]
        exact .init
      · change (s.conds.get c).Turn .outside ((s.conds.set d _).get c) .outside
        rw [Table.get_set_of_ne _ _ hd]
        exact .idle _ _
  | destroy o unwinding => exact absurd rfl (hdestroy o unwinding)
  | _ => exact houtside (by simp [objects]) (by simp)

theorem Store.destroyCond_cond (s : Store) (c d : CondRef) (unwinding : Bool) :
    (s.destroyCond d unwinding).1.conds.get c = if c = d then .raw else s.conds.get c := by
  rw [destroyCond_fst]
  exact Table.get_set ..

/-- A destruction takes away the condition variable that goes with the object, and no others. -/
theorem Store.destroy_cond (s : Store) (o : Object) (unwinding : Bool) (c : CondRef) :
    (s.destroy o unwinding).1.conds.get c = s.conds.get c ∨
      (s.destroy o unwinding).1.conds.get c = .raw ∧ .condition c ∈ o.parts s := by
  -- a mutex goes without any condition variable
  have hmutex (s : Store) (l : LockRef) (unwinding : Bool) :
      (s.destroyMutex l unwinding).1.conds = s.conds := by
    rw [destroyMutex_fst]
    rfl
  cases o with
  | mutex l => exact .inl (by rw [destroy, hmutex])
  | once o => exact .inl (by rw [destroy, hmutex])
  | semaphore r => exact .inl rfl
  | events e => exact .inl rfl
  | thread r => exact .inl (by rw [destroy, reportDrop_fst])
  | condition d =>
    rw [destroy, destroyCond_cond]
    split
    · exact .inr ⟨rfl, by simp [Object.parts, ‹c = d›]⟩
    · exact .inl rfl
  | monitor mo =>
    have hshare (l : LockRef) : (s.releaseShare l unwinding).1.conds = s.conds := by
      simp only [releaseShare]
      split
      · rw [hmutex]
      · rfl
    simp only [destroy, destroyMonitor]
    rw [destroyCond_cond, hshare]
    split
    · exact .inr ⟨rfl, by simp [Object.parts, ‹c = _›]⟩
    · exact .inl rfl

namespace Machine

variable {m m' : Machine} {move : Move}

/-- Where thread `t` is at condition variable `c`. -/
def place (m : Machine) (c : CondRef) (t : Tid) : Place := m.see (Call.place c) .outside t

/-- Nobody is inside a condition variable that may be destroyed. -/
theorem Sound.place_of_unused (hsound : m.Sound) {o : Object} (h : m.unused o = true)
    (hc : .condition c ∈ o.parts m.store) (t : Tid) : m.place c t = .outside := by
  apply see_eq
  intro call hcall
  exact Call.place_of_not_mem (not_mem_objects hsound h hc (mem_of_call? hcall))

/-- Nobody is inside a condition variable that does not exist yet. -/
theorem Sound.place_of_new (hsound : m.Sound) {c : Nat} (hc : m.store.nextHandle ≤ c) (t : Tid) :
    m.place c t = .outside := by
  apply see_eq
  intro call hcall
  apply Call.place_of_not_mem
  intro hmem
  have hknown := hsound.known t call (mem_of_call? hcall)
  exact Nat.not_lt.2 hc (Call.handle_lt_of_knows hknown hmem)

theorem Sound.place_of_unborn (hsound : m.Sound) {t : Tid} (ht : m.store.nextThread ≤ t) :
    m.place c t = .outside := by
  rw [place, see, call?, hsound.unborn t ht]
  rfl

/-- Whoever is in a wakeup is in a call of it. -/
theorem call?_of_waking {t : Tid} {e : WakeEvent} {p : WakeupPhase}
    (h : m.place c t = .waking e p) : m.call? t = some (.wakeup c e p) := by
  cases hcall : m.call? t with
  | none => simp [place, see, hcall] at h
  | some call =>
    rw [place, see_of_call? hcall] at h
    cases call <;> simp only [Call.place, reduceCtorEq] at h <;> split at h <;>
      try simp only [reduceCtorEq] at h
    case wakeup.isTrue d e' p' hd =>
      subst d
      cases p' <;> simp only [WakeupPhase.place, Place.waking.injEq, reduceCtorEq] at h <;>
        (obtain ⟨rfl, rfl⟩ := h; rfl)
    case wait.isTrue d l timeout p' hd =>
      cases p' <;> simp [WaitPhase.place] at h
    case waitWhile.isTrue d l timeout p' hd =>
      cases p' <;> simp only [WaitWhilePhase.place, reduceCtorEq] at h
      rename_i p'
      cases p' <;> simp [WaitPhase.place] at h

/-- Whoever is in a wait is in a call of it, or in a loop around it. -/
theorem call?_of_waiting {t : Tid} {l : LockRef} {timeout : Option Duration}
    {p : FallbackWaitPhase} (h : m.place c t = .waiting l timeout p) :
    m.call? t = some (.wait c l timeout (.fallback p)) ∨
      ∃ whole start,
        m.call? t = some (.waitWhile c l whole (.waiting start timeout (.fallback p))) := by
  cases hcall : m.call? t with
  | none => simp [place, see, hcall] at h
  | some call =>
    rw [place, see_of_call? hcall] at h
    cases call <;> simp only [Call.place, reduceCtorEq] at h <;> split at h <;>
      try simp only [reduceCtorEq] at h
    -- of the calls on this condition variable only waits have a place of a wait
    case wakeup.isTrue d e' p' hd =>
      cases p' <;> simp [WakeupPhase.place] at h
    case wait.isTrue d l' timeout' p' hd =>
      subst d
      cases p' <;> simp only [WaitPhase.place, Place.waiting.injEq, reduceCtorEq] at h
      obtain ⟨rfl, rfl, rfl⟩ := h
      exact .inl rfl
    case waitWhile.isTrue d l' whole p' hd =>
      subst d
      cases p' <;> simp only [WaitWhilePhase.place, reduceCtorEq] at h
      rename_i p'
      cases p' <;> simp only [WaitPhase.place, Place.waiting.injEq, reduceCtorEq] at h
      obtain ⟨rfl, rfl, rfl⟩ := h
      exact .inr ⟨_, _, rfl⟩

/-- In the middle of a wait a thread has the grip on the caller's mutex that its phase says. -/
theorem grip_of_waiting {t : Tid} {l : LockRef} {timeout : Option Duration}
    {p : FallbackWaitPhase} (h : m.place c t = .waiting l timeout p) (hids : m.Identified) :
    m.grip l t = p.grip ∧ m.store.Owns t p.me? := by
  rcases call?_of_waiting h with hcall | ⟨whole, start, hcall⟩
  · exact ⟨(see_of_call? hcall).trans (if_pos rfl), hids.owns hcall⟩
  · exact ⟨(see_of_call? hcall).trans (if_pos rfl), hids.owns hcall⟩

/-- In every wait the caller's mutex is given up and taken back without a failing check. -/
theorem releases (hids : m.Identified) (hholds : ∀ l, m.Holds l) (t : Tid) (c : CondRef) :
    m.store.Releases t (m.place c t) := by
  cases hplace : m.place c t with
  | outside => trivial
  | waking e p => trivial
  | waiting l timeout p =>
    obtain ⟨hgrip, hme⟩ := grip_of_waiting hplace hids
    have hfits := (hholds l).grips t
    rw [hgrip] at hfits
    cases p with
    | unlocking p => exact (p.step_moves hme hfits).1
    | locking p wokenBy => exact (p.step_moves hme hfits (hholds l) hids.distinct).1
    | _ => trivial

/-- What a move does to a condition variable and to the place of a thread there: a turn, or the
condition variable comes or goes while everybody is outside. -/
def Turns (m : Machine) (c : CondRef) (s' : Store) (p p' : Place) : Prop :=
  (m.store.conds.get c).Turn p (s'.conds.get c) p' ∨
    (s'.conds.get c = .raw ∨ ∃ backend, s'.conds.get c = .new backend) ∧ p' = p ∧
      ∀ u, m.place c u = .outside

/-- A move of the machine is a turn of one thread, if no internal check fails. -/
theorem Change.turns (hchange : m.Change move m') (hsound : m.Sound) (c : CondRef)
    (hmutex : ∀ t d, m.store.Releases t (m.place d t))
    (hsafe : ∀ t choice f, move = .advance t choice → m.store.conds.get c = .fallback f →
      ¬ f.Fault (m.place c t)) :
    ∃ t, (m.Turns c m'.store (m.place c t) (m'.place c t) ∧
        (m'.place c t = m.place c t ∨ ∃ choice, move = .advance t choice)) ∧
      ∀ u, u ≠ t → m'.place c u = m.place c u := by
  have hview : m.View (fun _ => Call.place c) .outside :=
    ⟨fun _ _ hcalm => hcalm.place c, fun _ _ _ _ => rfl⟩
  refine Change.see
    (Q := fun t s' p p' => m.Turns c s' p p' ∧ (p' = p ∨ ∃ choice, move = .advance t choice))
    hview hsound ?_ ?_ (fun _ _ => rfl) hchange
  -- a client leaves a condition variable as it is, or has just created it
  · intro t s' p hgrows
    refine ⟨?_, .inl rfl⟩
    rcases hgrows.conds c with hc | ⟨hle, -, hc⟩
    · refine .inl ?_
      rw [hc]
      exact .idle _ _
    · exact .inr ⟨hc, rfl, hsound.place_of_new hle⟩
  · intro t choice call hmove hcall hunused
    have hplace (d : CondRef) : m.place d t = call.place d := see_of_call? hcall
    have hmover (p p' : Place) : p' = p ∨ ∃ choice, move = .advance t choice :=
      .inr ⟨choice, hmove⟩
    by_cases hdestroy : ∃ o unwinding, call = .destroy o unwinding
    · obtain ⟨o, unwinding, rfl⟩ := hdestroy
      have hturns : m.Turns c (m.store.destroy o unwinding).1 .outside .outside := by
        rcases m.store.destroy_cond o unwinding c with hcond | ⟨hcond, hpart⟩
        · refine .inl ?_
          rw [hcond]
          exact .idle _ _
        · exact .inr ⟨.inl hcond, rfl, hsound.place_of_unused (hunused o unwinding rfl) hpart⟩
      exact (Call.ends_destroy t choice m.store o unwinding).meets
        (fun _ => ⟨hturns, hmover _ _⟩) ⟨hturns, hmover _ _⟩
    · have hstep : (call.step t choice m.store).TurnsAt c m.store (call.place c) :=
        Call.step_turns c (fun d => hplace d ▸ hmutex t d) fun o unwinding heq =>
          hdestroy ⟨o, unwinding, heq⟩
      refine hstep.mono (fun _ _ h => ⟨.inl h, hmover _ _⟩) (fun _ _ h => ⟨.inl h, hmover _ _⟩) ?_
      -- a check of the call's own may fail, but only outside
      intro s' hfault
      refine ⟨.inl ?_, hmover _ _⟩
      rcases hfault with ⟨hp, hcond⟩ | ⟨f, hcond, hfault⟩
      · rw [hp, hcond]
        exact .idle _ _
      · exact absurd hfault (hplace c ▸ hsafe t choice f hmove hcond)

/-- Inside, a step fails only by an internal check. -/
theorem step_succeeds {c : CondRef} {t : Tid} (choice : Choice)
    (hmutex : ∀ d, m.store.Releases t (m.place d t)) (hplace : m.place c t ≠ .outside)
    (hsafe : ∀ f, m.store.conds.get c = .fallback f → ¬ f.Fault (m.place c t)) :
    ∃ call outer, m.calls.get t = call :: outer ∧ (call.step t choice m.store).Succeeds := by
  cases hget : m.calls.get t with
  | nil => exact absurd (by rw [place, see, call?, hget]; rfl) hplace
  | cons call outer =>
    have hcall (d : CondRef) : m.place d t = call.place d := see_of_get hget
    refine ⟨call, outer, rfl, ?_⟩
    have hstep : (call.step t choice m.store).TurnsAt c m.store (call.place c) :=
      Call.step_turns c (fun d => hcall d ▸ hmutex d) fun o unwinding heq =>
        hplace (by rw [hcall, heq]; rfl)
    refine hstep.mono (fun _ _ _ => trivial) (fun _ _ _ => trivial) ?_
    intro s' hfault
    rcases hfault with ⟨hp, -⟩ | ⟨f, hcond, hfault⟩
    · exact hplace ((hcall c).trans hp)
    · exact hsafe f hcond (hcall c ▸ hfault)

end Machine

end Interlock
