import EntityQuery.Number.Digits
import EntityQuery.Number.Rounding

/-!
# Fixed point numbers

A `Decimal` is a sign, a coefficient of 96 bits and a scale of at most 28: it denotes the
coefficient divided by ten to the scale.  The scale is part of the value as it is written, so `1.5`
and `1.50` are different decimals that denote the same number.  Zero may carry a sign, which shows
only when it is written.

Reading a decimal keeps every digit that fits.  The first digit behind the point that does not fit
rounds the ones before it, and everything behind that digit is skipped.  An exponent moves the point
of what has been read so far; it rounds nothing.
-/

namespace EntityQuery

open Number

/-- A sign, a coefficient and the number of its digits behind the point. -/
structure Decimal where
  negative : Bool
  coefficient : Nat
  scale : Nat
  coefficient_lt : coefficient < 2 ^ (96 : Nat)
  scale_le : scale ≤ 28
  deriving DecidableEq

namespace Decimal

/-- The largest scale. -/
def maxScale : Nat := 28

/-- A decimal of the given parts, if they are in range. -/
def ofSignedParts? (negative : Bool) (coefficient scale : Nat) : Option Decimal :=
  if h : coefficient < 2 ^ (96 : Nat) ∧ scale ≤ 28 then
    some ⟨negative, coefficient, scale, h.1, h.2⟩
  else none

/-- A decimal of the given parts, if they are in range, where zero goes without a sign. -/
def ofParts? (negative : Bool) (coefficient scale : Nat) : Option Decimal :=
  ofSignedParts? (negative && coefficient != 0) coefficient scale

/-- A number without digits behind the point. -/
def whole (negative : Bool) (coefficient : Nat) (h : coefficient < 2 ^ (96 : Nat)) : Decimal :=
  ⟨negative, coefficient, 0, h, by decide⟩

def zero : Decimal := whole false 0 (by decide)

def one : Decimal := whole false 1 (by decide)

instance : Inhabited Decimal := ⟨zero⟩

/-- The integer whose quotient by ten to the scale the decimal denotes. -/
def signedCoefficient (d : Decimal) : Int :=
  if d.negative then -(d.coefficient : Int) else d.coefficient

def isZero (d : Decimal) : Bool := d.coefficient == 0

/-- A 64 bit integer as a decimal. -/
def ofInt64 (n : Int64) : Decimal :=
  whole (n.toInt < 0) n.toInt.natAbs <| by
    have h₁ := n.toInt_lt
    have h₂ := n.le_toInt
    omega

/-- The order of the numbers that two decimals denote. -/
def compare (a b : Decimal) : Ordering :=
  Ord.compare (a.signedCoefficient * 10 ^ b.scale) (b.signedCoefficient * 10 ^ a.scale)

/-! ## Writing -/

/-- The digits of the coefficient, at least one of them before the point. -/
def unsignedDigits (d : Decimal) : List Char :=
  let all := paddedDigits (d.scale + 1) d.coefficient
  if d.scale == 0 then all
  else all.take (all.length - d.scale) ++ '.' :: all.drop (all.length - d.scale)

/-- The text of a decimal: all digits of its scale are written. -/
def text (d : Decimal) : String :=
  String.ofList (if d.negative then '-' :: d.unsignedDigits else d.unsignedDigits)

instance : ToString Decimal := ⟨text⟩

/-! ## Reading -/

/-- What has been read of a decimal: the digits so far, how many of them stand behind the point, and
whether there was a digit and a point. -/
structure Reading where
  coefficient : Nat
  scale : Nat
  sawDigit : Bool
  sawPoint : Bool

/-- The end of the text: a decimal has at least one digit. -/
def Reading.finish? (negative : Bool) (r : Reading) : Option Decimal :=
  if r.sawDigit then ofParts? negative r.coefficient r.scale else none

/-- The coefficient with the first digit that does not fit rounded into it.  Where that makes it too
large, one more digit goes. -/
def Reading.roundUp? (negative : Bool) (r : Reading) : Option Decimal :=
  if r.coefficient + 1 < 2 ^ (96 : Nat) then ofParts? negative (r.coefficient + 1) r.scale
  else if r.scale == 0 then none
  else ofParts? negative ((r.coefficient + 1 + 4) / 10) (r.scale - 1)

/-- The character after the last digit that fits decides the rounding. -/
def Reading.round? (negative : Bool) (r : Reading) (c : Char) : Option Decimal :=
  if c.isDigit then
    if c.toNat - 48 ≥ 5 then r.roundUp? negative else r.finish? negative
  else if c == '_' || c == '.' then r.finish? negative
  else none

/-- From this coefficient on the reader looks past an underscore for the digit that rounds. -/
def Reading.wide : Nat := (2 ^ (64 : Nat) - 256) / 10

/-- Reads digits, one point and underscores between digits. -/
def Reading.run? (negative : Bool) (r : Reading) : List Char → Option Decimal
  | [] => r.finish? negative
  | c :: rest =>
    if r.sawPoint && r.sawDigit && r.scale ≥ maxScale &&
        !(c == '_' && r.coefficient ≥ Reading.wide) then r.round? negative c
    else if c.isDigit then
      let next := r.coefficient * 10 + (c.toNat - 48)
      if next < 2 ^ (96 : Nat) then
        Reading.run? negative ⟨next, if r.sawPoint then r.scale + 1 else 0, true, r.sawPoint⟩ rest
      else if r.sawPoint then r.round? negative c
      else none
    else if c == '.' && !r.sawPoint then
      Reading.run? negative { r with sawPoint := true } rest
    else if c == '_' && r.sawDigit then Reading.run? negative r rest
    else none

/-- Reads a decimal without an exponent: an optional sign, digits with at most one point,
underscores after digits. -/
def ofPlainChars? : List Char → Option Decimal
  | '-' :: rest => Reading.run? true ⟨0, 0, false, false⟩ rest
  | '+' :: rest => Reading.run? false ⟨0, 0, false, false⟩ rest
  | cs => Reading.run? false ⟨0, 0, false, false⟩ cs

/-- The decimal with its point moved to the right, or to the left for a negative number of places.
No digit is lost: where the result is out of range there is none. -/
def movePoint? (d : Decimal) (places : Int) : Option Decimal :=
  if places ≤ d.scale then ofParts? d.negative d.coefficient (d.scale - places).toNat
  else
    let zeros := (places - d.scale).toNat
    if zeros ≤ maxScale then ofParts? d.negative (d.coefficient * 10 ^ zeros) 0 else none

/-- Reads an exponent: a minus or none, then a number, which may have a plus in front. -/
def exponent? : List Char → Option Int
  | '-' :: rest => (readUnsigned? rest).map fun n => -(n : Int)
  | cs => (readUnsigned? cs).map fun n => (n : Int)

/-- Is the character the mark between a number and its exponent? -/
def isExponentMark (c : Char) : Bool := c == 'e' || c == 'E'

/-- Reads a decimal, which may have an exponent that moves its point. -/
def ofChars? (cs : List Char) : Option Decimal :=
  match cs.dropWhile (!isExponentMark ·) with
  | [] => ofPlainChars? cs
  | _ :: exponent => do
    (← ofPlainChars? (cs.takeWhile (!isExponentMark ·))).movePoint? (← exponent? exponent)

end Decimal

end EntityQuery
