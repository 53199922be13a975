/-!
# Durations and instants

Time is counted in whole nanoseconds.

  * `Duration` holds what a count of 64-bit seconds and a fraction below one second can hold;
  * `Instant` is a reading of a clock whose seconds fit a signed 64-bit word;
  * `Duration.truncated` is the granularity of a timed wait: whole milliseconds, at most
    `2 ^ 64 - 1` of them;
  * `Instant.add?` is the deadline that lies a duration ahead, if the clock can show it.
-/

namespace Interlock

/-- A span of time in nanoseconds, of fewer than `2 ^ 64` seconds. -/
structure Duration where
  nanos : Nat
  nanos_lt : nanos < 0x1_0000_0000_0000_0000 * 1_000_000_000
  deriving DecidableEq

namespace Duration

/-- The span of `n` nanoseconds, or the longest one if `n` is out of range. -/
def ofNanos (n : Nat) : Duration :=
  ⟨min n (0x1_0000_0000_0000_0000 * 1_000_000_000 - 1), by omega⟩

def zero : Duration := ⟨0, by decide⟩

def longest : Duration := ⟨0x1_0000_0000_0000_0000 * 1_000_000_000 - 1, by decide⟩

instance : Inhabited Duration := ⟨zero⟩

/-- The whole milliseconds in a span, clamped to 64 bits. -/
def wholeMillis (d : Duration) : Nat :=
  min (d.nanos / 1_000_000) 0xffff_ffff_ffff_ffff

/-- The span cut down to whole milliseconds: the granularity of a timed wait. -/
def truncated (d : Duration) : Duration :=
  ⟨d.wholeMillis * 1_000_000, by unfold wholeMillis; omega⟩

/-- What is left of `d` once `e` has passed; nothing if `e` is the longer one. -/
def sub? (d e : Duration) : Option Duration :=
  if e.nanos ≤ d.nanos then
    some ⟨d.nanos - e.nanos, Nat.lt_of_le_of_lt (Nat.sub_le ..) d.nanos_lt⟩
  else
    none

end Duration

/-- A reading of the clock in nanoseconds; its seconds fit a signed 64-bit word. -/
structure Instant where
  nanos : Int
  le_nanos : -0x8000_0000_0000_0000 * 1_000_000_000 ≤ nanos
  nanos_lt : nanos < 0x8000_0000_0000_0000 * 1_000_000_000
  deriving DecidableEq

namespace Instant

/-- The earliest reading. A process starts with it, so that any reading may be its first one that
matters. -/
def start : Instant := ⟨-0x8000_0000_0000_0000 * 1_000_000_000, by decide, by decide⟩

instance : Inhabited Instant := ⟨start⟩

/-- The reading `d` later, if the clock can show it. -/
def add? (now : Instant) (d : Duration) : Option Instant :=
  if h : now.nanos + d.nanos < 0x8000_0000_0000_0000 * 1_000_000_000 then
    some ⟨now.nanos + d.nanos, by have := now.le_nanos; omega, h⟩
  else
    none

/-- The time from `earlier` to `now`, empty if the order is the other way round. -/
def since (now earlier : Instant) : Duration :=
  ⟨(now.nanos - earlier.nanos).toNat, by have := now.nanos_lt; have := earlier.le_nanos; omega⟩

/-- The clock `n` nanoseconds later; it stops at its last reading. -/
def advance (now : Instant) (n : Nat) : Instant :=
  ⟨min (now.nanos + n) (0x8000_0000_0000_0000 * 1_000_000_000 - 1),
    by have := now.le_nanos; omega, by omega⟩

/-- Whether a deadline has come; no deadline never comes. -/
def reached (now : Instant) : Option Instant → Bool
  | some deadline => decide (deadline.nanos ≤ now.nanos)
  | none => false

/-- The deadline of a wait that starts now: none if it is untimed, and none if the clock
cannot show it, which is as good as no deadline. -/
def deadline (now : Instant) (timeout : Option Duration) : Option Instant :=
  timeout.bind now.add?

end Instant

end Interlock
