import Interlock.Handle

/-!
# Wake events

A pair of events that threads wait for together. `one` resets itself: it releases a single
waiter. `all` stays set until it is reset.

  * `WakeEvent` names the two events, `EventFlags` holds them;
  * `EventFlags.take?` is the check that ends a wait: `one` goes first and is consumed;
  * `WakeEvents`: the flags and the threads asleep until they change.
-/

namespace Interlock

/-- One of the two events. -/
inductive WakeEvent where
  | one
  | all
  deriving DecidableEq

def WakeEvent.describe : WakeEvent → String
  | .one => "One"
  | .all => "All"

/-- Which of the two events are set. -/
structure EventFlags where
  one : Bool
  all : Bool
  deriving DecidableEq

namespace EventFlags

def clear : EventFlags := ⟨false, false⟩

def isSet (flags : EventFlags) : WakeEvent → Bool
  | .one => flags.one
  | .all => flags.all

/-- Writes the flag of one event. -/
def put (flags : EventFlags) (value : Bool) : WakeEvent → EventFlags
  | .one => { flags with one := value }
  | .all => { flags with all := value }

/-- The event that releases a waiter now, and the flags it leaves: `one` is consumed and goes
before `all`, which stays set. -/
def take? (flags : EventFlags) : Option (WakeEvent × EventFlags) :=
  if flags.one then some (.one, { flags with one := false })
  else if flags.all then some (.all, flags)
  else none

/-- What a waiter sees of two events. -/
theorem take_cases (flags : EventFlags) :
    (flags.one = true ∧ flags.take? = some (.one, { flags with one := false })) ∨
      (flags.one = false ∧ flags.all = true ∧ flags.take? = some (.all, flags)) ∨
      flags.one = false ∧ flags.all = false ∧ flags.take? = none := by
  rcases flags with ⟨_ | _, _ | _⟩ <;> simp [take?]

theorem isSet_put (flags : EventFlags) (value : Bool) (event event' : WakeEvent) :
    (flags.put value event').isSet event = if event = event' then value else flags.isSet event := by
  cases event <;> cases event' <;> rfl

def describe (flags : EventFlags) : String :=
  "WakeEvents \x7b one: " ++ toString flags.one ++ ", all: " ++ toString flags.all ++ " \x7d"

end EventFlags

/-- The flags and the threads asleep until they change. -/
structure WakeEvents where
  flags : EventFlags
  sleepers : List Tid
  deriving DecidableEq

namespace WakeEvents

/-- Both events unset, nobody asleep. -/
def new : WakeEvents := ⟨.clear, []⟩

instance : Inhabited WakeEvents := ⟨new⟩

end WakeEvents

end Interlock
