import EntityQuery.Text.Blank
import EntityQuery.Time.Instant

/-!
# Reading dates and times

A layout is a list of items: fields of a date or a clock and single characters between them.  A
field of digits skips blanks before it and takes a limited number of digits; the year alone may
carry a sign and then takes as many as there are.  A text fits a layout when the items use it up and
the fields name a day of the calendar and a time of the clock.
-/

namespace EntityQuery.Time

open Number

/-- One piece of a layout. -/
inductive Item
  | year
  | month
  | day
  | hour
  | minute
  | second
  | fraction
  | offset
  | mark (c : Char)
  deriving DecidableEq

/-- The fields that have been read.  A second or an offset may be missing. -/
structure Fields where
  year : Int
  month : Nat
  day : Nat
  hour : Nat
  minute : Nat
  second : Nat
  nanos : Nat
  offset : Int

/-- Fields before anything is read. -/
def Fields.start : Fields := ⟨0, 0, 0, 0, 0, 0, 0, 0⟩

/-- At least one and at most `width` digits. -/
def readDigits? (width : Nat) (cs : List Char) : Option (Nat × List Char) :=
  let run := (cs.take width).takeWhile Char.isDigit
  if run.isEmpty then none else some (digitsValue 0 run, cs.drop run.length)

/-- A run of at least one digit that fits 64 bits. -/
def readLongDigits? (cs : List Char) : Option (Nat × List Char) :=
  let run := cs.takeWhile Char.isDigit
  let value := digitsValue 0 run
  if run.isEmpty || value ≥ 2 ^ (63 : Nat) then none else some (value, cs.drop run.length)

/-- A field of at most two digits between two bounds. -/
def readField? (low high : Nat) (cs : List Char) : Option (Nat × List Char) :=
  (readDigits? 2 (Text.trimFront cs)).filter fun field => low ≤ field.1 && field.1 ≤ high

/-- A year: up to four digits, or a sign and digits that fit 32 bits. -/
def readYear? (cs : List Char) : Option (Int × List Char) :=
  match Text.trimFront cs with
  | '-' :: rest => (readLongDigits? rest).bind fun (n, rest) =>
    if n ≤ 2 ^ (31 : Nat) then some (-(n : Int), rest) else none
  | '+' :: rest => (readLongDigits? rest).bind fun (n, rest) =>
    if n < 2 ^ (31 : Nat) then some ((n : Int), rest) else none
  | rest => (readDigits? 4 rest).map fun (n, rest) => ((n : Int), rest)

/-- The fraction of a second: nothing, or a point and digits of which nine count. -/
def readFraction? : List Char → Option (Nat × List Char)
  | '.' :: rest =>
    let run := rest.takeWhile Char.isDigit
    let kept := run.take 9
    if run.isEmpty then none
    else some (digitsValue 0 kept * 10 ^ (9 - kept.length), rest.drop run.length)
  | cs => some (0, cs)

/-- Two digits exactly. -/
def readPair? : List Char → Option (Nat × List Char)
  | a :: b :: rest =>
    if a.isDigit && b.isDigit then some (digitsValue 0 [a, b], rest) else none
  | _ => none

/-- Colons and blanks between the hours and the minutes of an offset. -/
def isOffsetGap (c : Char) : Bool := c == ':' || Text.isBlank c

/-- An offset: a sign, two digits of hours and two of minutes. -/
def readOffset? (cs : List Char) : Option (Int × List Char) :=
  match Text.trimFront cs with
  | [] => none
  | sign :: rest =>
    if sign == '+' || sign == '-' || sign == '\u2212' then
      (readPair? rest).bind fun (hours, rest) =>
        (readPair? (rest.dropWhile isOffsetGap)).bind fun (minutes, rest) =>
          let seconds : Int := hours * 3600 + minutes * 60
          if minutes < 60 then some (if sign == '+' then seconds else -seconds, rest) else none
    else none

/-- Reads one item. -/
def Item.read? (fields : Fields) (cs : List Char) : Item → Option (Fields × List Char)
  | .year => (readYear? cs).map fun (n, rest) => ({ fields with year := n }, rest)
  | .month => (readField? 1 12 cs).map fun (n, rest) => ({ fields with month := n }, rest)
  | .day => (readField? 1 31 cs).map fun (n, rest) => ({ fields with day := n }, rest)
  | .hour => (readField? 0 23 cs).map fun (n, rest) => ({ fields with hour := n }, rest)
  | .minute => (readField? 0 59 cs).map fun (n, rest) => ({ fields with minute := n }, rest)
  | .second => (readField? 0 60 cs).map fun (n, rest) => ({ fields with second := n }, rest)
  | .fraction => (readFraction? cs).map fun (n, rest) => ({ fields with nanos := n }, rest)
  | .offset => (readOffset? cs).map fun (n, rest) => ({ fields with offset := n }, rest)
  | .mark c => match cs with
    | d :: rest => if c == d then some (fields, rest) else none
    | [] => none

/-- Reads the items of a layout, which have to use up the text. -/
def readItems? (fields : Fields) : List Item → List Char → Option Fields
  | [], cs => if cs.isEmpty then some fields else none
  | item :: items, cs => (item.read? fields cs).bind fun (fields, rest) =>
    readItems? fields items rest

/-- Reads a whole text. -/
def fields? (layout : List Item) (cs : List Char) : Option Fields :=
  readItems? Fields.start layout cs

/-- Year, month and day. -/
def dateLayout : List Item := [.year, .mark '-', .month, .mark '-', .day]

/-- Hours and minutes. -/
def minuteLayout : List Item := [.hour, .mark ':', .minute]

/-- Hours, minutes and seconds with their fraction. -/
def secondLayout : List Item := minuteLayout ++ [.mark ':', .second, .fraction]

/-- The date in the fields. -/
def Fields.date? (f : Fields) : Option Date := Date.readable? f.year f.month f.day

/-- The time in the fields.  Second 60 is the leap second after second 59. -/
def Fields.time? (f : Fields) : Option TimeOfDay :=
  if f.second == 60 then
    TimeOfDay.ofParts? (f.hour * 3600 + f.minute * 60 + 59) (nanosPerSecond + f.nanos)
  else TimeOfDay.ofParts? (f.hour * 3600 + f.minute * 60 + f.second) f.nanos

/-- The instant in the fields. -/
def Fields.instant? (f : Fields) : Option Instant :=
  f.date?.bind fun date => f.time?.bind fun time => Instant.ofLocal? date time f.offset

/-- Reads a date. -/
def readDate? (cs : List Char) : Option Date := (fields? dateLayout cs).bind Fields.date?

/-- Reads a time with or without seconds. -/
def readTime? (cs : List Char) : Option TimeOfDay :=
  ((fields? secondLayout cs).bind Fields.time?).or ((fields? minuteLayout cs).bind Fields.time?)

/-- The layouts of an instant, in the order they are tried.  Without an offset the clock shows
universal time. -/
def instantLayouts : List (List Item) :=
  let day := dateLayout ++ [.mark 'T']
  [day ++ secondLayout ++ [.offset], day ++ minuteLayout ++ [.offset],
    day ++ secondLayout, day ++ minuteLayout]

/-- A final `Z` stands for the offset zero. -/
def expandZulu (cs : List Char) : List Char :=
  match cs.getLast? with
  | some 'Z' => cs.dropLast ++ ['+', '0', '0', ':', '0', '0']
  | _ => cs

/-- Reads an instant. -/
def readInstant? (cs : List Char) : Option Instant :=
  instantLayouts.findSome? fun layout => (fields? layout (expandZulu cs)).bind Fields.instant?

end EntityQuery.Time
