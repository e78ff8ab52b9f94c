import EntityQuery.Number.Rounding

/-!
# Binary floating point numbers

A floating point number is looked at through `FloatView`: not a number, an infinity, or a sign, a
natural number and a power of two.  In the other direction `FloatFormat.magnitudeBits` rounds an
exact quotient to the nearest number of a format.  Everything that is not one of the four operations
of the processor (conversions, rounding to whole numbers, remainders, reading and writing) is
computed exactly between the two, so it does not depend on a machine.
-/

namespace EntityQuery.Number

/-- A binary interchange format: the bits of the significand, hidden one included, and of the
exponent. -/
structure FloatFormat where
  precision : Nat
  exponentBits : Nat

/-- Single precision. -/
def binary32 : FloatFormat := ⟨24, 8⟩

/-- Double precision. -/
def binary64 : FloatFormat := ⟨53, 11⟩

/-- What a floating point number denotes: `finite negative m e` is `m * 2 ^ e` with a sign. -/
inductive FloatView
  | nan
  | infinite (negative : Bool)
  | finite (negative : Bool) (significand : Nat) (exponent : Int)
  deriving DecidableEq

namespace FloatFormat

/-- The bits that store the significand. -/
def fractionBits (f : FloatFormat) : Nat := f.precision - 1

/-- The exponent of the smallest positive number. -/
def minExponent (f : FloatFormat) : Int :=
  2 - 2 ^ (f.exponentBits - 1) - (f.precision - 1 : Nat)

/-- The bits of positive infinity. -/
def infinityBits (f : FloatFormat) : Nat := (2 ^ f.exponentBits - 1) * 2 ^ f.fractionBits

/-- The place of the sign. -/
def signBit (f : FloatFormat) : Nat := 2 ^ (f.fractionBits + f.exponentBits)

/-- Reads the bits of a number. -/
def view (f : FloatFormat) (bits : Nat) : FloatView :=
  let negative := bits / f.signBit % 2 == 1
  let biased := bits / 2 ^ f.fractionBits % 2 ^ f.exponentBits
  let fraction := bits % 2 ^ f.fractionBits
  if biased == 2 ^ f.exponentBits - 1 then
    if fraction == 0 then .infinite negative else .nan
  else if biased == 0 then .finite negative fraction f.minExponent
  else .finite negative (fraction + 2 ^ f.fractionBits) (f.minExponent + (biased - 1 : Nat))

/-- The bits of the number nearest to a quotient that is not negative; a tie goes to the even
significand, and what is too large becomes infinite. -/
def magnitudeBits (f : FloatFormat) (num den : Nat) : Nat :=
  if num == 0 then 0
  else
    let lowest : Int := (Nat.log2 num : Int) - Nat.log2 den - f.precision
    let scaled (e : Int) : Nat × Nat :=
      if e < 0 then (num * 2 ^ (-e).toNat, den) else (num, den * 2 ^ e.toNat)
    let first := max f.minExponent lowest
    let exponent :=
      if (scaled first).1 / (scaled first).2 ≥ 2 ^ f.precision then first + 1 else first
    let significand := divHalfEven (scaled exponent).1 (scaled exponent).2
    min f.infinityBits ((exponent - f.minExponent).toNat * 2 ^ f.fractionBits + significand)

/-- The bits of a quotient with a sign. -/
def ratioBits (f : FloatFormat) (negative : Bool) (num den : Nat) : Nat :=
  (if negative then f.signBit else 0) + f.magnitudeBits num den

/-- The bits of the number of a format nearest to what a view denotes. -/
def bitsOf (f : FloatFormat) : FloatView → Nat
  | .nan => f.infinityBits + 2 ^ (f.fractionBits - 1)
  | .infinite negative => (if negative then f.signBit else 0) + f.infinityBits
  | .finite negative m e =>
    if e < 0 then f.ratioBits negative m (2 ^ (-e).toNat)
    else f.ratioBits negative (m * 2 ^ e.toNat) 1

end FloatFormat

/-! ## The two formats in use -/

/-- The view of a double. -/
def doubleView (x : Float) : FloatView := binary64.view x.toBits.toNat

/-- The view of a single. -/
def singleView (x : Float32) : FloatView := binary32.view x.toBits.toNat

/-- The double nearest to what a view denotes. -/
def doubleOf (v : FloatView) : Float := Float.ofBits (UInt64.ofNat (binary64.bitsOf v))

/-- The single nearest to what a view denotes. -/
def singleOf (v : FloatView) : Float32 := Float32.ofBits (UInt32.ofNat (binary32.bitsOf v))

/-- A single as a double, without loss. -/
def widen (x : Float32) : Float := doubleOf (singleView x)

/-- The single nearest to a double. -/
def narrow (x : Float) : Float32 := singleOf (doubleView x)

/-- The double nearest to an integer. -/
def doubleOfInt (n : Int) : Float := doubleOf (.finite (n < 0) n.natAbs 0)

/-- The way a number that is not whole becomes whole. -/
inductive WholeRule
  | down
  | up
  | nearest
  deriving DecidableEq

/-- The whole number a magnitude `num / den` with a sign is rounded to. -/
def WholeRule.apply (rule : WholeRule) (negative : Bool) (num den : Nat) : Nat :=
  match rule, negative with
  | .down, false | .up, true => num / den
  | .up, false | .down, true => divCeil num den
  | .nearest, _ => divHalfUp num den

/-- A view rounded to a whole number.  Zero keeps its sign. -/
def FloatView.toWhole (rule : WholeRule) : FloatView → FloatView
  | .finite negative m e =>
    if e < 0 then .finite negative (rule.apply negative m (2 ^ (-e).toNat)) 0
    else .finite negative m e
  | v => v

/-- A double rounded to a whole number. -/
def wholeDouble (rule : WholeRule) (x : Float) : Float := doubleOf ((doubleView x).toWhole rule)

/-- The exact remainder of a division that rounds toward zero.  It has the sign of the dividend. -/
def FloatView.remainder : FloatView → FloatView → FloatView
  | .finite negative m e, .finite _ n k =>
    if n == 0 then .nan
    else
      let low := min e k
      .finite negative (m * 2 ^ (e - low).toNat % (n * 2 ^ (k - low).toNat)) low
  | .finite negative m e, .infinite _ => .finite negative m e
  | _, _ => .nan

/-- The remainder of two doubles. -/
def doubleRemainder (x y : Float) : Float := doubleOf ((doubleView x).remainder (doubleView y))

/-- The order of two doubles, which a number that is not one has no part in. -/
def compareDoubles? (x y : Float) : Option Ordering :=
  if x < y then some .lt
  else if y < x then some .gt
  else if x == y then some .eq
  else none

end EntityQuery.Number
