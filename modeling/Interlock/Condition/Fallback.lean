import Interlock.Semaphore
import Interlock.WakeEvents

/-!
# The portable condition variable

A condition variable made of one state word, an entry gate and two wake events.

The word holds the number of registered sleepers in its low thirty bits and the wakeup in
progress, if any, in the two bits above. A thread registers while it has the gate. A wakeup takes
the gate, publishes its mode in the word and sets the matching event; the gate stays closed until
the last sleeper has left.

  * `Fallback`: word, gate and events; `Fallback.sleepers` and `Fallback.mode` read the two
    fields of the word;
  * `Fallback.isQuiescent`: no sleepers, no wakeup in progress, gate open.
-/

namespace Interlock

/-- The state word, the entry gate and the wake events. -/
structure Fallback where
  word : UInt32
  gate : Permits
  events : EventFlags
  deriving DecidableEq

namespace Fallback

/-- The number of sleepers that the word can count up to, excluded. -/
def sleepersLimit : Nat := 0x40000000

/-- The word's mode while no wakeup is in progress. -/
def modeNone : UInt32 := 0

/-- The word's mode during the wakeup of a single sleeper. -/
def modeOne : UInt32 := 0x40000000

/-- The word's mode during the wakeup of all sleepers. -/
def modeAll : UInt32 := 0x80000000

/-- The mode that a wakeup with this event publishes. -/
def modeOf : WakeEvent → UInt32
  | .one => modeOne
  | .all => modeAll

/-- Nobody waits, the gate is open. -/
def new : Fallback := ⟨modeNone, ⟨1, 1⟩, .clear⟩

def sleepersOf (word : UInt32) : Nat := word.toNat % sleepersLimit

def modeBits (word : UInt32) : Nat := word.toNat / sleepersLimit * sleepersLimit

def sleepers (f : Fallback) : Nat := sleepersOf f.word

/-- The wakeup in progress. -/
def mode (f : Fallback) : Nat := modeBits f.word

/-- No sleepers, no wakeup in progress, gate open. -/
def isQuiescent (f : Fallback) : Bool :=
  f.word == modeNone && f.gate.available == 1

def describe (f : Fallback) : String :=
  "FallbackCondvar \x7b sleepers: " ++ toString f.sleepers
    ++ ", wakeup_mode: " ++ toString f.mode
    ++ ", entry_gate: " ++ f.gate.describe
    ++ ", events: " ++ f.events.describe ++ " \x7d"

end Fallback

end Interlock
