import EntityQuery.Time.Date
import EntityQuery.Time.TimeOfDay

/-!
# Instants

An `Instant` is a point in time, counted in seconds and nanoseconds from the start of 1970 in
universal time, together with the offset of the clock that showed it.  The order of instants does
not see the offset.
-/

namespace EntityQuery

open Number

/-- A point in time and the offset, in seconds east, of the clock that showed it. -/
structure Instant where
  seconds : Int
  nanos : Nat
  offset : Int
  nanos_lt : nanos < 2000000000
  offset_lt : -86400 < offset ∧ offset < 86400
  deriving DecidableEq

namespace Instant

/-- The instant of the given parts, if there is one. -/
def ofParts? (seconds : Int) (nanos : Nat) (offset : Int) : Option Instant :=
  if h : nanos < 2000000000 ∧ (-86400 < offset ∧ offset < 86400) then
    some ⟨seconds, nanos, offset, h.1, h.2⟩
  else none

/-- The instant at which a clock with the given offset shows a date and a time. -/
def ofLocal? (date : Date) (time : TimeOfDay) (offset : Int) : Option Instant :=
  let seconds := date.dayNumber * 86400 + time.seconds - offset
  let year := (Date.ofDayNumber (seconds.fdiv 86400)).year
  if Date.minYear ≤ year && year ≤ Date.maxYear then ofParts? seconds time.nanos offset else none

/-- The seconds the clock of the instant shows. -/
def localSeconds (i : Instant) : Int := i.seconds + i.offset

/-- The date the clock of the instant shows. -/
def date (i : Instant) : Date := Date.ofDayNumber (i.localSeconds.fdiv 86400)

/-- The seconds since midnight the clock of the instant shows. -/
def secondOfDay (i : Instant) : Nat := (i.localSeconds.fmod 86400).toNat

/-- Instants are ordered by universal time. -/
def compare (a b : Instant) : Ordering :=
  (Ord.compare a.seconds b.seconds).then (Ord.compare a.nanos b.nanos)

/-- Date and time of the clock. -/
def localText (i : Instant) : String :=
  i.date.text ++ "T" ++ TimeOfDay.clockText i.secondOfDay i.nanos

/-- An offset with hours and minutes, rounded to the nearest minute. -/
def minuteOffsetText (offset : Int) : String :=
  let minutes := (offset.natAbs + 30) / 60
  (if offset < 0 then "-" else "+") ++ padded 2 (minutes / 60) ++ ":" ++ padded 2 (minutes % 60)

/-- An offset with hours, minutes and, where there are any, seconds. -/
def exactOffsetText (offset : Int) : String :=
  let n := offset.natAbs
  (if offset < 0 then "-" else "+") ++ padded 2 (n / 3600) ++ ":" ++ padded 2 (n / 60 % 60) ++
    (if n % 60 == 0 then "" else ":" ++ padded 2 (n % 60))

/-- The text of an instant in output: clock and offset in minutes. -/
def text (i : Instant) : String := i.localText ++ minuteOffsetText i.offset

/-- The text of an instant in a message: clock and exact offset. -/
def exactText (i : Instant) : String := i.localText ++ exactOffsetText i.offset

instance : ToString Instant := ⟨text⟩

end Instant

end EntityQuery
