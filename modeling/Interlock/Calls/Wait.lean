import Interlock.Calls.Lock

/-!
# Waiting on a condition variable

The atomic steps of a wait, timed or not. Both backends release the caller's mutex only after the
thread has become a waiter, and give it back before the wait ends.

  * `NativeWaitPhase`: the platform queues the thread and releases its mutex in one step. The
    owner word is cleared before and written again after.
  * `FallbackWaitPhase`: the thread registers under the entry gate, unlocks the mutex, and waits
    for either wake event. A thread that leaves deregisters in one step, and clears the mode with
    it if it consumed event `one`; whoever leaves last while a wakeup is still published clears
    the event and the mode and opens the gate.
  * `WaitPhase`: the checks that come first, and then either of the two.

Timeouts are cut down to whole milliseconds. The reply says whether the thread was woken.
-/

namespace Interlock

/-! ## The platform's condition variable -/

/-- Where a thread is in a wait on the platform's condition variable. -/
inductive NativeWaitPhase where
  | entry
  | check (me : ThreadId)
  | disclaim (me : ThreadId)
  | enqueue (me : ThreadId)
  /-- The platform refused the mutex; it is released before the panic goes on. -/
  | refused
  | queued (me : ThreadId) (deadline : Option Instant)
  | retake (me : ThreadId) (woken : Bool)
  | claim (me : ThreadId) (woken : Bool)
  deriving DecidableEq

namespace NativeWaitPhase

/-- One step of thread `t` waiting on condition variable `c` with mutex `l`. -/
def step (t : Tid) (c : CondRef) (l : LockRef) (timeout : Option Duration) (s : Store) :
    NativeWaitPhase → Progress NativeWaitPhase Bool
  | entry =>
    if (s.lock l).isNone then
      s.violate (.mutexUninitialized .waitOn)
    else
      let (s, me) := s.currentId t
      .next s (.check me)
  | check me =>
    s.withLock l fun lock =>
      if lock.owner = me then .next s (.disclaim me) else s.violate (.notHolder .waitOn me)
  | disclaim me =>
    s.withLock l fun lock => .next (s.setLock l (lock.claim .nobody)) (.enqueue me)
  | enqueue me =>
    s.withNative c fun q =>
      s.withLock l fun lock =>
        if q.accepts l then
          .next ((s.setCond c (.native (q.enqueue t l))).setLock l lock.release)
            (.queued me (s.clock.deadline (timeout.map Duration.truncated)))
        else
          .next s .refused
  | refused =>
    s.withLock l fun lock => .fault (s.setLock l lock.release) .secondMutex
  | queued me deadline =>
    s.withNative c fun q =>
      if ¬ q.waiting t then .next s (.retake me true)
      else if s.clock.reached deadline then
        .next (s.setCond c (.native (q.remove t))) (.retake me false)
      else .blocked
  | retake me woken =>
    s.withLock l fun lock =>
      if lock.isLocked then .blocked else .next (s.setLock l (lock.take t)) (.claim me woken)
  | claim me woken =>
    s.withLock l fun lock => .done (s.setLock l (lock.claim me)) woken

end NativeWaitPhase

/-! ## The portable condition variable -/

/-- Where a thread is in a wait on the portable condition variable. -/
inductive FallbackWaitPhase where
  | enter
  | register
  | handBack
  | unlocking (p : UnlockPhase)
  | listen
  | parked (deadline : Option Instant)
  | depart (wokenBy : Option WakeEvent)
  /-- A last sleeper that timed out waits for the event that has been announced. -/
  | await (event : WakeEvent)
  /-- The last sleeper of a broadcast resets the event. -/
  | lower (wokenBy : Option WakeEvent)
  | retract (wokenBy : Option WakeEvent)
  | reopen (wokenBy : Option WakeEvent)
  | locking (p : LockPhase) (wokenBy : Option WakeEvent)
  deriving DecidableEq

namespace FallbackWaitPhase

/-- What deregistering takes off the word: the sleeper, and the mode that it consumed. -/
def share : Option WakeEvent → UInt32
  | some .one => 1 + Fallback.modeOne
  | _ => 1

/-- What a sleeper does that has deregistered and left `mode` and `sleepers` behind. -/
def afterDeparture (timed : Bool) (wokenBy : Option WakeEvent) (mode sleepers : Nat) (s : Store) :
    Progress FallbackWaitPhase Bool :=
  match wokenBy with
  | some .one =>
    if mode = 0 then .next s (.reopen wokenBy) else s.violate (.wrongSingleWakeup mode)
  | none =>
    if mode = Fallback.modeOne.toNat ∧ sleepers = 0 then
      .next (s.report .timedOutLast) (.await .one)
    else if mode = Fallback.modeAll.toNat ∧ sleepers = 0 then
      .next (s.report .broadcastLeft) (.await .all)
    else if timed then .next s (.locking .entry wokenBy)
    else s.violate (.invalidWakeup wokenBy mode sleepers)
  | some .all =>
    if mode = Fallback.modeAll.toNat then
      if sleepers = 0 then .next (s.report .broadcastLeft) (.lower wokenBy)
      else .next s (.locking .entry wokenBy)
    else s.violate (.invalidWakeup wokenBy mode sleepers)

/-- One step of thread `t` waiting on condition variable `c` with mutex `l`. -/
def step (t : Tid) (c : CondRef) (l : LockRef) (timeout : Option Duration) (s : Store) :
    FallbackWaitPhase → Progress FallbackWaitPhase Bool
  | enter =>
    s.withFallback c fun f =>
      match f.gate.take? with
      | some gate => .next (s.setCond c (.fallback { f with gate := gate })) .register
      | none => .blocked
  | register =>
    s.withFallback c fun f =>
      let s := s.setCond c (.fallback { f with word := f.word + 1 })
      if f.mode ≠ 0 then s.violate .registeredDuringWakeup
      else if f.sleepers + 1 = Fallback.sleepersLimit then s.violate .tooManySleepers
      else .next s .handBack
  | handBack =>
    s.withFallback c fun f =>
      match f.gate.put? with
      | some gate => .next (s.setCond c (.fallback { f with gate := gate })) (.unlocking .entry)
      | none => s.violate (.overRelease f.gate.max)
  | unlocking p => (p.step t l s).within unlocking fun s _ => .next s .listen
  | listen => .next s (.parked (s.clock.deadline (timeout.map Duration.truncated)))
  | parked deadline =>
    s.withFallback c fun f =>
      match f.events.take? with
      | some (event, events) =>
        .next (s.setCond c (.fallback { f with events := events })) (.depart (some event))
      | none => if s.clock.reached deadline then .next s (.depart none) else .blocked
  | depart wokenBy =>
    s.withFallback c fun f =>
      let word := f.word - share wokenBy
      afterDeparture timeout.isSome wokenBy (Fallback.modeBits word) (Fallback.sleepersOf word)
        (s.setCond c (.fallback { f with word := word }))
  | await event =>
    s.withFallback c fun f =>
      match f.events.take? with
      | some (got, events) =>
        let s := s.setCond c (.fallback { f with events := events })
        if got = event then
          match event with
          | .one => .next s (.retract none)
          | .all => .next s (.lower none)
        else s.violate (.unexpectedEvent event (some got))
      | none => .blocked
  | lower wokenBy =>
    s.withFallback c fun f =>
      .next (s.setCond c (.fallback { f with events := f.events.put false .all }))
        (.retract wokenBy)
  | retract wokenBy =>
    s.withFallback c fun f =>
      .next (s.setCond c (.fallback { f with word := Fallback.modeNone })) (.reopen wokenBy)
  | reopen wokenBy =>
    s.withFallback c fun f =>
      match f.gate.put? with
      | some gate =>
        .next (s.setCond c (.fallback { f with gate := gate })) (.locking .entry wokenBy)
      | none => s.violate (.overRelease f.gate.max)
  | locking p wokenBy =>
    (p.step t l s).within (locking · wokenBy) fun s _ => .done s wokenBy.isSome

end FallbackWaitPhase

/-! ## Either backend -/

/-- Where a thread is in a wait. -/
inductive WaitPhase where
  | entry
  | identify
  | check (me : ThreadId)
  | native (p : NativeWaitPhase)
  | fallback (p : FallbackWaitPhase)
  deriving DecidableEq

namespace WaitPhase

/-- One step of thread `t` waiting on condition variable `c` with mutex `l`. -/
def step (t : Tid) (c : CondRef) (l : LockRef) (timeout : Option Duration) (s : Store) :
    WaitPhase → Progress WaitPhase Bool
  | entry =>
    if (s.conds.get c).isInitialized then .next s identify
    else s.violate (.conditionUninitialized .waitOn)
  | identify =>
    if (s.lock l).isNone then
      s.violate .waitWithoutMutex
    else
      let (s, me) := s.currentId t
      .next s (.check me)
  | check me =>
    s.withLock l fun lock =>
      if lock.owner ≠ me then s.violate .waitWithoutMutex
      else match s.conds.get c with
        | .raw => .blocked
        | .native _ => .next s (.native .entry)
        | .fallback _ => .next s (.fallback .enter)
  | native p => (p.step t c l timeout s).within native fun s woken => .done s woken
  | fallback p => (p.step t c l timeout s).within fallback fun s woken => .done s woken

end WaitPhase

end Interlock
