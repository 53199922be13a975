import Interlock.Progress

/-!
# Setting events and waiting for them

The atomic steps of a pair of wake events. Setting a flag and waking the sleepers are two steps.
A thread that waits looks at the flags first; if none is set it falls asleep in the same step,
and it looks again whenever it is woken, and once more when its timeout fires.

The reply of a wait is the event that ended it, or nothing for a timeout.
-/

namespace Interlock

/-- Where a thread is in setting an event. -/
inductive SetPhase where
  | raise
  | notify
  deriving DecidableEq

namespace SetPhase

/-- One step of setting an event of pair `e`. -/
def step (e : EventsRef) (event : WakeEvent) (s : Store) : SetPhase → Progress SetPhase Unit
  | raise =>
    let events := s.events.get e
    .next (s.setEvents e { events with flags := events.flags.put true event }) notify
  | notify => .done (s.setEvents e { s.events.get e with sleepers := [] }) ()

end SetPhase

def resetStep {φ : Type} (e : EventsRef) (event : WakeEvent) (s : Store) : Progress φ Unit :=
  let events := s.events.get e
  .done (s.setEvents e { events with flags := events.flags.put false event }) ()

/-- Where a thread is in waiting for an event. -/
inductive ListenPhase where
  | begin
  | check (deadline : Option Instant)
  | asleep (deadline : Option Instant)
  deriving DecidableEq

namespace ListenPhase

/-- A look at the flags: the wait ends if one is set, or if its time is over; else the thread
falls asleep. -/
def look (t : Tid) (e : EventsRef) (deadline : Option Instant) (expired : Bool) (s : Store) :
    Progress ListenPhase (Option WakeEvent) :=
  let events := s.events.get e
  match events.flags.take? with
  | some (event, flags) => .done (s.setEvents e { events with flags := flags }) (some event)
  | none =>
    if expired then .done s none
    else .next (s.setEvents e { events with sleepers := events.sleepers ++ [t] }) (asleep deadline)

/-- One step of thread `t` waiting for an event of pair `e`. -/
def step (t : Tid) (e : EventsRef) (timeout : Option Duration) (s : Store) :
    ListenPhase → Progress ListenPhase (Option WakeEvent)
  | begin => .next s (check (s.clock.deadline timeout))
  | check deadline => look t e deadline false s
  | asleep deadline =>
    let events := s.events.get e
    if t ∉ events.sleepers then look t e deadline false s
    else if s.clock.reached deadline then
      look t e deadline true (s.setEvents e { events with sleepers := events.sleepers.erase t })
    else .blocked

end ListenPhase

end Interlock
