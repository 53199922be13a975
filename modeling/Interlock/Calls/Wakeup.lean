import Interlock.Progress

/-!
# Waking waiters

The atomic steps of a signal (event `one`) and of a broadcast (event `all`).

The platform's condition variable removes its waiters in one step. The portable one takes the
entry gate and publishes its mode together with a look at the number of sleepers. With sleepers it
sets the event and leaves the gate closed: the last sleeper to leave opens it. Without sleepers
the wakeup is dropped, and the gate is opened at once.
-/

namespace Interlock

/-- Where a thread is in waking waiters. -/
inductive WakeupPhase where
  | entry
  | notify
  | enter
  | publish
  | raise
  | retract
  | reopen
  deriving DecidableEq

namespace WakeupPhase

/-- One step of waking waiters of condition variable `c`. -/
def step (c : CondRef) (event : WakeEvent) (choice : Choice) (s : Store) :
    WakeupPhase → Progress WakeupPhase Unit
  | entry =>
    match s.conds.get c with
    | .raw => s.violate (.conditionUninitialized (.ofEvent event))
    | .native _ => .next s .notify
    | .fallback _ => .next s .enter
  | notify =>
    s.withNative c fun q =>
      match event with
      | .one => .done (s.setCond c (.native (q.notifyOne choice.pick))) ()
      | .all => .done (s.setCond c (.native q.notifyAll)) ()
  | enter =>
    s.withFallback c fun f =>
      match f.gate.take? with
      | some gate => .next (s.setCond c (.fallback { f with gate := gate })) .publish
      | none => .blocked
  | publish =>
    s.withFallback c fun f =>
      let s := s.setCond c (.fallback { f with word := f.word + Fallback.modeOf event })
      if f.mode ≠ 0 then s.violate .wakeupOverlap
      else if f.sleepers > 0 then .next s .raise
      else .next s .retract
  | raise =>
    s.withFallback c fun f =>
      .done (s.setCond c (.fallback { f with events := f.events.put true event })) ()
  | retract =>
    s.withFallback c fun f =>
      .next ((s.report (.wakeupDropped event)).setCond c
        (.fallback { f with word := Fallback.modeNone })) .reopen
  | reopen =>
    s.withFallback c fun f =>
      match f.gate.put? with
      | some gate => .done (s.setCond c (.fallback { f with gate := gate })) ()
      | none => s.violate (.overRelease f.gate.max)

end WakeupPhase

end Interlock
