import EntityQuery.Number.Digits

/-!
# Times of day

A `TimeOfDay` counts the whole seconds since midnight and the nanoseconds after them.  A leap second
has no number of its own: it is the second before it with a thousand million nanoseconds or more.
Clocks show one at the end of a minute only, but it may be kept after any second.
-/

namespace EntityQuery

open Number

/-- The nanoseconds of a second. -/
def nanosPerSecond : Nat := 1000000000

/-- A time of day, leap seconds included. -/
structure TimeOfDay where
  seconds : Nat
  nanos : Nat
  seconds_lt : seconds < 86400
  nanos_lt : nanos < 2 * 1000000000
  deriving DecidableEq

namespace TimeOfDay

/-- The time of the given parts, if there is one. -/
def ofParts? (seconds nanos : Nat) : Option TimeOfDay :=
  if h : seconds < 86400 ∧ nanos < 2 * 1000000000 then some ⟨seconds, nanos, h.1, h.2⟩ else none

/-- Times are ordered by their seconds and then their nanoseconds. -/
def compare (a b : TimeOfDay) : Ordering :=
  (Ord.compare a.seconds b.seconds).then (Ord.compare a.nanos b.nanos)

/-- The fraction of a second with three, six or nine digits, and nothing for a whole one. -/
def fractionText (nanos : Nat) : String :=
  if nanos == 0 then ""
  else if nanos % 1000000 == 0 then "." ++ padded 3 (nanos / 1000000)
  else if nanos % 1000 == 0 then "." ++ padded 6 (nanos / 1000)
  else "." ++ padded 9 nanos

/-- The text of a clock reading: hours, minutes and seconds of at least two digits.  A leap second
is written as the next one, which is second 60 at the end of a minute. -/
def clockText (seconds nanos : Nat) : String :=
  let second := seconds % 60 + nanos / nanosPerSecond
  padded 2 (seconds / 3600) ++ ":" ++ padded 2 (seconds / 60 % 60) ++ ":" ++ padded 2 second ++
    fractionText (nanos % nanosPerSecond)

/-- The text of a time. -/
def text (t : TimeOfDay) : String := clockText t.seconds t.nanos

instance : ToString TimeOfDay := ⟨text⟩

end TimeOfDay

end EntityQuery
