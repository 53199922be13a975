import Interlock.Table
import Interlock.Handle

/-!
# Thread identities

Identities come from one source that counts upwards from 1. A thread that the library starts is
given its identity by its creator; any other thread draws one when it first needs it, and both
kinds keep what they have.

  * `ThreadId` and the distinguished identity `ThreadId.nobody`;
  * `Identities`: the source, and what every thread holds;
  * `Identities.current`: the caller's own identity, drawn on first need.
-/

namespace Interlock

/-- A process-wide identity of a thread. -/
structure ThreadId where
  toNat : Nat
  deriving DecidableEq

namespace ThreadId

/-- The identity that means "no thread". -/
def nobody : ThreadId := ⟨0⟩

instance : Inhabited ThreadId := ⟨nobody⟩

/-- Whether this is the identity of no thread. -/
def isNobody (id : ThreadId) : Bool := id.toNat == 0

/-- How an identity is shown to users. -/
def display (id : ThreadId) : String :=
  if id.isNobody then "none" else toString id.toNat

/-- How an identity is shown to programmers. -/
def describe (id : ThreadId) : String :=
  "ThreadId(" ++ id.display ++ ")"

end ThreadId

/-- The source of identities and the identity every thread holds, `nobody` before it has one. -/
structure Identities where
  last : Nat
  own : Table ThreadId

namespace Identities

def initial : Identities := ⟨0, .empty⟩

instance : Inhabited Identities := ⟨initial⟩

def draw (ids : Identities) : Identities × ThreadId :=
  ({ ids with last := ids.last + 1 }, ⟨ids.last + 1⟩)

def install (ids : Identities) (t : Tid) (id : ThreadId) : Identities :=
  { ids with own := ids.own.set t id }

/-- The identity of thread `t`, drawn now if it has none yet. -/
def current (ids : Identities) (t : Tid) : Identities × ThreadId :=
  if ids.own.get t = .nobody then
    let (drawn, id) := ids.draw
    (drawn.install t id, id)
  else
    (ids, ids.own.get t)

end Identities

end Interlock
