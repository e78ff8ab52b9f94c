import EntityQuery.Number.Decimal

/-!
# Arithmetic of decimals

Sums, differences and products are computed exactly and then fitted: digits behind the point are
dropped until coefficient and scale are in range, the last one rounded half to even.  A result whose
whole part is too large has no decimal.

A quotient is developed nine digits at a time.  One that comes out even at once has the scale that
the scales of its operands leave; every other one gains digits until it comes out even or no more of
them fit, and then loses some of its trailing zeros.
-/

namespace EntityQuery.Decimal

open Number

/-- The decimal nearest to `coefficient / 10 ^ scale`, with as many digits as fit.  One that becomes
zero by that keeps its sign. -/
def fit? (negative : Bool) (coefficient scale : Nat) : Option Decimal :=
  let surplus := scale - maxScale
  (List.range (scale - surplus + 1)).findSome? fun dropped =>
    ofSignedParts? negative (divHalfEven coefficient (10 ^ (surplus + dropped)))
      (scale - surplus - dropped)

/-- An integer over a power of ten as a decimal. -/
def fitInt? (coefficient : Int) (scale : Nat) : Option Decimal :=
  fit? (coefficient < 0) coefficient.natAbs scale

/-- The coefficient a decimal would have at a scale that is not smaller than its own. -/
def coefficientAt (d : Decimal) (scale : Nat) : Int :=
  d.signedCoefficient * 10 ^ (scale - d.scale)

/-- The decimal with the other sign. -/
def negate (d : Decimal) : Decimal := { d with negative := !d.negative }

/-- The sum of two decimals.  Zero leaves the other operand as it is written. -/
def add? (a b : Decimal) : Option Decimal :=
  if a.isZero then some b
  else if b.isZero then some a
  else
    let scale := max a.scale b.scale
    fitInt? (a.coefficientAt scale + b.coefficientAt scale) scale

/-- The difference of two decimals. -/
def sub? (a b : Decimal) : Option Decimal :=
  if a.isZero then some (if b.isZero then b else b.negate)
  else if b.isZero then some a
  else
    let scale := max a.scale b.scale
    fitInt? (a.coefficientAt scale - b.coefficientAt scale) scale

/-- The nearest decimal to a product of coefficients that have 32 bits each, where zero goes without
a sign.  More than 19 places below the last digit it is plain zero. -/
def shortProduct? (negative : Bool) (coefficient scale : Nat) : Option Decimal :=
  if scale > maxScale + 19 then some zero
  else
    ofParts? negative (divHalfEven coefficient (10 ^ (scale - maxScale))) (min scale maxScale)

/-- The product of two decimals. -/
def mul? (a b : Decimal) : Option Decimal :=
  if a.isZero || b.isZero then some zero
  else
    let negative := a.negative != b.negative
    let scale := a.scale + b.scale
    if a.coefficient < 2 ^ (32 : Nat) && b.coefficient < 2 ^ (32 : Nat) then
      shortProduct? negative (a.coefficient * b.coefficient) scale
    else fit? negative (a.coefficient * b.coefficient) scale

/-! ## Division -/

/-- The coefficients a decimal may have are below this. -/
def coefficientBound : Nat := 2 ^ (96 : Nat)

/-- The most digits that a quotient gains at once. -/
def maxGain : Nat := 9

/-- The most digits, up to `limit`, that can be put behind a coefficient. -/
def roomBehind (coefficient : Nat) : Nat → Nat
  | 0 => 0
  | limit + 1 =>
    if coefficient * 10 ^ (limit + 1) < coefficientBound then limit + 1
    else roomBehind coefficient limit

/-- A coefficient that is too large without its last digit, rounded half to even.  `sticky` says
that there is something behind that digit. -/
def dropDigit (coefficient : Nat) (sticky : Bool) : Nat :=
  let shorter := coefficient / 10
  let digit := coefficient % 10
  if digit > 5 || (digit == 5 && (sticky || shorter % 2 == 1)) then shorter + 1 else shorter

/-- A coefficient with `room` further places, which may have become too large by one digit. -/
def settle? (coefficient room : Nat) (sticky : Bool) : Option (Nat × Nat) :=
  if coefficient < coefficientBound then some (coefficient, room)
  else if room + 1 > maxScale then none
  else some (dropDigit coefficient sticky, room + 1)

/-- The number of digits to gain next, where `room` places are left behind the point.  A quotient
that came out even only needs to reach the point. -/
def gain? (quotient remainder room : Nat) : Option Nat :=
  if remainder == 0 then some (min maxGain (room - maxScale))
  else
    let digits := roomBehind quotient (min maxGain room)
    if digits < maxGain && digits + maxScale < room then none else some digits

/-- Develops a quotient until it comes out even or its places or digits are used up; then the last
digit is rounded half to even.  The scale is `maxScale - room`, which is negative at first where the
divisor has more digits behind the point. -/
def develop? (divisor quotient remainder room : Nat) : Option (Nat × Nat) :=
  if remainder == 0 && room ≤ maxScale then some (quotient, room)
  else
    match gain? quotient remainder room with
    -- The point is out of reach, so the quotient is too large.
    | none => none
    | some gain =>
      -- No room for another digit: the rest of the quotient decides the rounding.
      if _h : gain = 0 ∨ room = 0 then
        settle? (divHalfEven (quotient * divisor + remainder) divisor) room true
      else
        let shifted := remainder * 10 ^ gain
        if quotient * 10 ^ gain ≥ coefficientBound then none
        else
          let next := quotient * 10 ^ gain + shifted / divisor
          let left := shifted % divisor
          if next ≥ coefficientBound then settle? next (room - gain) (left != 0)
          else develop? divisor next left (room - gain)
termination_by room
decreasing_by omega

/-- Removes `count` trailing zeros if all of them are there and behind the point. -/
def dropZeros (count : Nat) (parts : Nat × Nat) : Nat × Nat :=
  if parts.2 ≥ count && parts.1 % 10 ^ count == 0 then (parts.1 / 10 ^ count, parts.2 - count)
  else parts

/-- Removes trailing zeros eight at a time, as long as the 32 lowest bits are zero. -/
def dropLongZeros (coefficient scale : Nat) : Nat × Nat :=
  if _h : scale ≥ 8 then
    if coefficient % 2 ^ (32 : Nat) == 0 && coefficient % 10 ^ (8 : Nat) == 0 then
      dropLongZeros (coefficient / 10 ^ (8 : Nat)) (scale - 8)
    else (coefficient, scale)
  else (coefficient, scale)
termination_by scale
decreasing_by omega

/-- Removes trailing zeros from a quotient that did not come out even at first.  Apart from long
runs of zeros at most seven are removed. -/
def shorten (coefficient scale : Nat) : Nat × Nat :=
  dropZeros 1 (dropZeros 2 (dropZeros 4 (dropLongZeros coefficient scale)))

/-- The quotient of two decimals, where the divisor is not zero. -/
def div? (a b : Decimal) : Option Decimal :=
  if a.isZero then some zero
  else
    let remainder := a.coefficient % b.coefficient
    (develop? b.coefficient (a.coefficient / b.coefficient) remainder
        (maxScale + b.scale - a.scale)).bind fun (coefficient, room) =>
      let scale := maxScale - room
      let parts := if remainder == 0 then (coefficient, scale) else shorten coefficient scale
      ofParts? (a.negative != b.negative) parts.1 parts.2

/-! ## Remainder -/

/-- The remainder of a division that rounds toward zero, where the divisor is not zero.  It has the
sign of the dividend. -/
def rem? (a b : Decimal) : Option Decimal :=
  if a.isZero then some zero
  else
    let scale := max a.scale b.scale
    let dividend := (a.coefficientAt scale).natAbs
    let divisor := (b.coefficientAt scale).natAbs
    if dividend == divisor then some zero
    else if dividend < divisor then some a
    else ofParts? a.negative (dividend % divisor) scale

/-! ## Rounding to a whole number -/

/-- The whole part.  Zero keeps the sign of what was cut. -/
def truncate (d : Decimal) : Decimal :=
  whole d.negative (d.coefficient / 10 ^ d.scale)
    (Nat.lt_of_le_of_lt (Nat.div_le_self _ _) d.coefficient_lt)

/-- Is the number whole? -/
def isWhole (d : Decimal) : Bool := d.coefficient % 10 ^ d.scale == 0

/-- The largest whole number that is not above. -/
def floor (d : Decimal) : Decimal :=
  if d.scale == 0 then d
  else if d.negative && !d.isWhole then ((d.truncate).sub? one).getD d.truncate
  else d.truncate

/-- The smallest whole number that is not below. -/
def ceiling (d : Decimal) : Decimal :=
  if d.scale == 0 then d
  else if d.isWhole || d.negative then d.truncate
  else ((d.truncate).add? one).getD d.truncate

/-- The nearest whole number; a tie goes away from zero. -/
def round (d : Decimal) : Decimal :=
  if d.isZero then { zero with negative := d.negative }
  else if d.scale == 0 then d
  else (ofParts? d.negative (divHalfUp d.coefficient (10 ^ d.scale)) 0).getD d.truncate

end EntityQuery.Decimal
