import EntityQuery.Number.Digits
import EntityQuery.Number.Floating

/-!
# Floating point numbers as text

A floating point number is written with the fewest digits that read back as the same number, and of
those with the ones nearest to it.  The digits are found on the decimal grids of one, two, three, …
digits: the two points of a grid next to the number are tried, and the first grid with a point
inside the interval of reals that round to the number wins.

How the digits are laid out is a matter of the place they are written to.  A `FloatStyle` says for
which magnitudes the point stands among the digits and for which a power of ten follows, and which
of two equally near points of a grid is written.
-/

namespace EntityQuery.Number

/-! ## The shortest digits -/

/-- `digits * 10 ^ exponent`. -/
structure Scientific where
  digits : Nat
  exponent : Int
  deriving DecidableEq

/-- Moves trailing zeros of the digits into the exponent. -/
def Scientific.stripped : Nat → Scientific → Scientific
  | 0, s => s
  | fuel + 1, s =>
    if s.digits != 0 && s.digits % 10 == 0 then
      Scientific.stripped fuel ⟨s.digits / 10, s.exponent + 1⟩
    else s

/-- The largest `t` with `10 ^ t ≤ num / den`, for a positive quotient. -/
def decimalExponent (num den : Nat) : Int :=
  if num ≥ den then ((digits (num / den)).length : Int) - 1
  else
    let count := (digits (den / num)).length
    if num * 10 ^ (count - 1) ≥ den then -((count - 1 : Nat) : Int) else -(count : Int)

/-- The reals that round to a number, in units of `1 / den`, and the number itself. -/
structure RoundingInterval where
  low : Nat
  value : Nat
  high : Nat
  den : Nat
  closed : Bool

/-- The interval of the number `m * 2 ^ e`.  Below a power of two the next number is half as far. -/
def FloatFormat.interval (f : FloatFormat) (m : Nat) (e : Int) : RoundingInterval :=
  let below := if m == 2 ^ f.fractionBits && e > f.minExponent then 1 else 2
  let factor := if e ≥ 2 then 2 ^ (e - 2).toNat else 1
  let den := if e ≥ 2 then 1 else 2 ^ (2 - e).toNat
  ⟨(4 * m - below) * factor, 4 * m * factor, (4 * m + 2) * factor, den, m % 2 == 0⟩

/-- The point of the grid `10 ^ t` that lies in the interval and is nearest to its value. -/
def RoundingInterval.pointOn? (tie : Tie) (i : RoundingInterval) (t : Int) : Option Nat :=
  let finer := 10 ^ (-t).toNat
  let step := i.den * 10 ^ t.toNat
  let value := i.value * finer
  let inside (c : Nat) : Bool :=
    if i.closed then i.low * finer ≤ c * step && c * step ≤ i.high * finer
    else i.low * finer < c * step && c * step < i.high * finer
  let c := value / step
  let below := value - c * step
  let above := (c + 1) * step - value
  match inside c, inside (c + 1) with
  | true, true => some (if above < below || (above == below && tie.goesUp c) then c + 1 else c)
  | true, false => some c
  | false, true => some (c + 1)
  | false, false => none

/-- The most digits a double needs. -/
def maxDigits : Nat := 17

/-- The shortest decimal that reads back as `m * 2 ^ e`, for a positive `m`. -/
def FloatFormat.shortest (f : FloatFormat) (tie : Tie) (m : Nat) (e : Int) : Scientific :=
  let i := f.interval m e
  let top := decimalExponent i.value i.den
  let found := (List.range maxDigits).findSome? fun (more : Nat) =>
    (i.pointOn? tie (top - (more : Int))).map fun c => (⟨c, top - (more : Int)⟩ : Scientific)
  (found.getD ⟨0, 0⟩).stripped maxDigits

/-! ## Layout -/

/-- The decimal exponents, counted as the number of digits before the point, that are written
without a power of ten, what stands before a power of ten that is not negative, and which of two
equally near texts is taken. -/
structure FloatStyle where
  lowest : Int
  highest : Int
  plus : List Char
  tie : Tie

/-- A positive number laid out: with the point among its digits, or with one digit before the point
and a power of ten. -/
def FloatStyle.layout (style : FloatStyle) (s : Scientific) : String :=
  let ds := digits s.digits
  let before := (ds.length : Int) + s.exponent
  let chars :=
    if style.lowest ≤ before && before ≤ style.highest then
      if s.exponent ≥ 0 then ds ++ List.replicate s.exponent.toNat '0' ++ ['.', '0']
      else if before > 0 then ds.take before.toNat ++ '.' :: ds.drop before.toNat
      else '0' :: '.' :: (List.replicate (-before).toNat '0' ++ ds)
    else
      let sign := if before ≥ 1 then style.plus else []
      let power := 'e' :: (sign ++ (intText (before - 1)).toList)
      match ds with
      | [d] => d :: power
      | d :: rest => d :: '.' :: (rest ++ power)
      | [] => power
  String.ofList chars

/-- The text of a finite number. -/
def FloatStyle.finiteText (style : FloatStyle) (f : FloatFormat) (negative : Bool) (m : Nat)
    (e : Int) : String :=
  let magnitude := if m == 0 then "0.0" else style.layout (f.shortest style.tie m e)
  if negative then "-" ++ magnitude else magnitude

/-- Numbers in messages: no power of ten from a ten-thousandth up to sixteen digits, and of two
equally near texts the larger one. -/
def messageStyle : FloatStyle := ⟨-3, 16, [], .up⟩

/-- The text of a number in a message. -/
def FloatFormat.messageText (f : FloatFormat) : FloatView → String
  | .nan => "NaN"
  | .infinite negative => if negative then "-inf" else "inf"
  | .finite negative m e => messageStyle.finiteText f negative m e

/-! ## Reading -/

/-- The magnitude below and above which a decimal is zero or infinite in every format in use. -/
def decimalRange : Int := 400

/-- The view of `digits * 10 ^ exponent` rounded to a format. -/
def FloatFormat.ofScientific (f : FloatFormat) (negative : Bool) (s : Scientific) : FloatView :=
  let places := ((digits s.digits).length : Int) + s.exponent
  if s.digits == 0 || places < -decimalRange then .finite negative 0 f.minExponent
  else if places > decimalRange then .infinite negative
  else if s.exponent < 0 then
    f.view (f.ratioBits negative s.digits (10 ^ (-s.exponent).toNat))
  else f.view (f.ratioBits negative (s.digits * 10 ^ s.exponent.toNat) 1)

/-- The exponent behind the digits: nothing, or an `e` and an integer. -/
def readExponent? : List Char → Option Int
  | [] => some 0
  | c :: rest => if c == 'e' || c == 'E' then readInt? rest else none

/-- Digits with at most one point, then an exponent. -/
def readScientific? (cs : List Char) : Option Scientific :=
  let whole := cs.takeWhile Char.isDigit
  let rest := cs.dropWhile Char.isDigit
  let (fraction, rest) := match rest with
    | '.' :: after => (after.takeWhile Char.isDigit, after.dropWhile Char.isDigit)
    | _ => ([], rest)
  if whole.isEmpty && fraction.isEmpty then none
  else (readExponent? rest).map fun exponent =>
    ⟨digitsValue (digitsValue 0 whole) fraction, exponent - fraction.length⟩

/-- The magnitude of a number, or one of the words for those that have none. -/
def FloatFormat.readMagnitude? (f : FloatFormat) (negative : Bool) (cs : List Char) :
    Option FloatView :=
  let word := String.ofList (cs.map Char.toLower)
  if word == "inf" || word == "infinity" then some (.infinite negative)
  else if word == "nan" then some .nan
  else (readScientific? cs).map (f.ofScientific negative)

/-- Reads a floating point number with an optional sign. -/
def FloatFormat.read? (f : FloatFormat) : List Char → Option FloatView
  | '-' :: rest => f.readMagnitude? true rest
  | '+' :: rest => f.readMagnitude? false rest
  | cs => f.readMagnitude? false cs

end EntityQuery.Number
