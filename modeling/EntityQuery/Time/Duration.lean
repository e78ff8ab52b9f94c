import EntityQuery.Number.FloatText

/-!
# Durations

A `Duration` is a span of time in nanoseconds, of either sign, up to 2^63 - 1 milliseconds.  It is
written as a period of days, hours, minutes and seconds; seconds may carry a fraction, and a
component that is zero is left out unless nothing else would remain.

Reading takes the components in any order.  Days, hours and minutes are whole numbers.  Seconds are
read as a floating point number and rounded to the nanosecond.
-/

namespace EntityQuery

open Number

/-- The longest duration, in nanoseconds. -/
def maxDurationNanos : Int := (2 ^ (63 : Nat) - 1) * 1000000

/-- A span of time. -/
structure Duration where
  nanos : Int
  nanos_mem : -maxDurationNanos ≤ nanos ∧ nanos ≤ maxDurationNanos
  deriving DecidableEq

namespace Duration

/-- A span of the given length, if it is not too long. -/
def ofNanos? (nanos : Int) : Option Duration :=
  if h : -maxDurationNanos ≤ nanos ∧ nanos ≤ maxDurationNanos then some ⟨nanos, h⟩ else none

def zero : Duration := ⟨0, by decide, by decide⟩

instance : Inhabited Duration := ⟨zero⟩

/-- The sum of two spans, if it is not too long. -/
def add? (a b : Duration) : Option Duration := ofNanos? (a.nanos + b.nanos)

/-- The span in the other direction. -/
def negate (d : Duration) : Duration :=
  ⟨-d.nanos, by have := d.nanos_mem; omega⟩

/-- Durations are ordered by their length with sign. -/
def compare (a b : Duration) : Ordering := Ord.compare a.nanos b.nanos

/-! ## Writing -/

/-- The digits of a fraction of a second without trailing zeros. -/
def fractionDigits (nanos : Nat) : List Char :=
  ((paddedDigits 9 nanos).reverse.dropWhile (· == '0')).reverse

/-- A component and its unit, unless it is zero. -/
def component (n : Nat) (unit : String) : String := if n > 0 then toString n ++ unit else ""

/-- The components of a time below a day.  All of them zero leaves the seconds. -/
def timeText (hours minutes seconds nanos : Nat) : String :=
  component hours "H" ++ component minutes "M" ++
    (if nanos > 0 then toString seconds ++ "." ++ String.ofList (fractionDigits nanos) ++ "S"
    else if seconds > 0 || (hours == 0 && minutes == 0) then toString seconds ++ "S"
    else "")

/-- The text of a span that is not negative. -/
def magnitudeText (nanos : Nat) : String :=
  let total := nanos / 1000000000
  let days := total / 86400
  let hours := total / 3600 % 24
  let minutes := total / 60 % 60
  let seconds := total % 60
  let rest := nanos % 1000000000
  "P" ++ component days "D" ++
    (if hours > 0 || minutes > 0 || seconds > 0 || rest > 0 || days == 0 then
      "T" ++ timeText hours minutes seconds rest
    else "")

/-- The text of a span. -/
def text (d : Duration) : String :=
  (if d.nanos < 0 then "-" else "") ++ magnitudeText d.nanos.natAbs

instance : ToString Duration := ⟨text⟩

/-! ## Reading -/

/-- The units a component may have, and whether they stand behind the `T`. -/
inductive Part
  | days
  | hours
  | minutes
  | seconds
  deriving DecidableEq

/-- The unit a letter stands for. -/
def Part.ofLetter? (inTime : Bool) (c : Char) : Option Part :=
  match inTime, c with
  | false, 'D' => some .days
  | true, 'H' => some .hours
  | true, 'M' => some .minutes
  | true, 'S' => some .seconds
  | _, _ => none

/-- A whole number of days, hours or minutes. -/
def wholePart? (unitSeconds : Int) (number : List Char) : Option Duration :=
  (readIntIn? (-2 ^ (63 : Nat)) (2 ^ (63 : Nat) - 1) number).bind fun n =>
    ofNanos? (n * unitSeconds * 1000000000)

/-- A floating point number of seconds, rounded to the nanosecond. -/
def secondsPart? (number : List Char) : Option Duration :=
  (binary64.read? number).bind fun view =>
    let nanos := doubleOf view * 1e9
    match (doubleView nanos).toWhole .nearest with
    | .finite negative m e =>
      let magnitude := m * 2 ^ e.toNat
      if nanos.abs < 9223372036854775808.0 then
        ofNanos? (if negative then -(magnitude : Int) else magnitude)
      else none
    | _ => none

/-- The span of one component. -/
def Part.read? (number : List Char) : Part → Option Duration
  | .days => wholePart? 86400 number
  | .hours => wholePart? 3600 number
  | .minutes => wholePart? 60 number
  | .seconds => secondsPart? number

/-- The characters a number is made of. -/
def isNumberChar (c : Char) : Bool := c.isDigit || c == '.'

/-- What has been read: the sum, whether the `T` was there, and whether there was a component at all
and one behind the `T`. -/
structure Reading where
  total : Duration
  inTime : Bool
  sawPart : Bool
  sawTimePart : Bool

/-- Reads components and the `T`, adding `number` of digits read so far. -/
def Reading.run? (r : Reading) (number : List Char) : List Char → Option Duration
  | [] =>
    if number.isEmpty && r.sawPart && (!r.inTime || r.sawTimePart) then some r.total else none
  | c :: rest =>
    if isNumberChar c then Reading.run? r (number ++ [c]) rest
    else if c == 'T' && number.isEmpty then
      -- The `T` appears once, and never inside a component.
      if r.inTime then none else Reading.run? { r with inTime := true } [] rest
    else
      match Part.ofLetter? r.inTime c with
      | none => none
      | some part =>
        match (part.read? number).bind r.total.add? with
        | none => none
        | some total => Reading.run? ⟨total, r.inTime, true, r.sawTimePart || r.inTime⟩ [] rest

/-- Reads a span without a sign. -/
def readMagnitude? : List Char → Option Duration
  | 'P' :: rest => Reading.run? ⟨zero, false, false, false⟩ [] rest
  | _ => none

/-- Reads a span. -/
def ofChars? : List Char → Option Duration
  | '-' :: rest => (readMagnitude? rest).map negate
  | cs => readMagnitude? cs

end Duration

end EntityQuery
