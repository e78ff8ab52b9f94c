import EntityQuery.Error.Cause

/-!
# Arithmetic

Two numbers are computed in the kind in which they meet.  Integers are computed exactly and refused
when the result does not fit; division rounds toward zero.  Decimals are exact up to their size.
Floating point numbers are computed as doubles, and a single result is rounded from that.
-/

namespace EntityQuery

open Number

/-- The operators that compute a number. -/
inductive ArithmeticOperator
  | add
  | sub
  | mul
  | div
  | mod
  deriving DecidableEq, Inhabited

namespace ArithmeticOperator

/-- The operator as it stands in an expression. -/
def toBinary : ArithmeticOperator → BinaryOperator
  | add => .add
  | sub => .sub
  | mul => .mul
  | div => .div
  | mod => .mod

/-- Does the operator divide? -/
def divides : ArithmeticOperator → Bool
  | div | mod => true
  | _ => false

/-- Does an integer fit a number of bits? -/
def fits (bits : Nat) (n : Int) : Bool := -(2 ^ (bits - 1)) ≤ n && n < 2 ^ (bits - 1)

/-- The exact result on integers, where the divisor is not zero. -/
def exact (operator : ArithmeticOperator) (a b : Int) : Int :=
  match operator with
  | add => a + b
  | sub => a - b
  | mul => a * b
  | div => a.tdiv b
  | mod => a.tmod b

/-- The result on integers if it fits 64 bits.  A remainder is refused together with its quotient.
-/
def onIntegers? (operator : ArithmeticOperator) (a b : Int) : Option Int :=
  if operator == mod && !fits 64 (a.tdiv b) then none
  else if fits 64 (operator.exact a b) then some (operator.exact a b)
  else none

/-- The result on decimals, where the divisor is not zero. -/
def onDecimals? (operator : ArithmeticOperator) (a b : Decimal) : Option Decimal :=
  match operator with
  | add => a.add? b
  | sub => a.sub? b
  | mul => a.mul? b
  | div => a.div? b
  | mod => a.rem? b

/-- The result on doubles. -/
def onDoubles (operator : ArithmeticOperator) (x y : Float) : Float :=
  match operator with
  | add => x + y
  | sub => x - y
  | mul => x * y
  | div => x / y
  | mod => doubleRemainder x y

/-- Integers in 32 or 64 bits. -/
def applyIntegers (operator : ArithmeticOperator) (wide : Bool) (a b : Int) :
    Except EvalError Value :=
  if operator.divides && b == 0 then .error .divisionByZero
  else
    match operator.onIntegers? a b with
    | none => .error (.overflow operator.toBinary)
    | some n =>
      if wide then .ok (.int64 (Int64.ofInt n))
      else if fits 32 n then .ok (.int32 (Int32.ofInt n))
      else .error (.overflow operator.toBinary)

/-- Decimals. -/
def applyDecimals (operator : ArithmeticOperator) (a b : Decimal) : Except EvalError Value :=
  if operator.divides && b.isZero then .error .divisionByZero
  else
    match operator.onDecimals? a b with
    | some d => .ok (.decimal d)
    | none => .error (.overflow operator.toBinary)

/-- Two numbers in the kind in which they meet. -/
def apply (operator : ArithmeticOperator) (left right : Value) : Except EvalError Value :=
  let refused : Except EvalError Value := .error (.operands operator.toBinary left right)
  let meeting := left.primitiveKind?.bind fun k => right.primitiveKind?.bind k.promote
  match meeting with
  | some .int32 | some .int64 =>
    match left.asInt64?, right.asInt64? with
    | some a, some b => operator.applyIntegers (meeting == some .int64) a.toInt b.toInt
    | _, _ => refused
  | some .decimal =>
    match left.asDecimal?, right.asDecimal? with
    | some a, some b => operator.applyDecimals a b
    | _, _ => refused
  | some .single =>
    match left.asDouble?, right.asDouble? with
    | some x, some y => .ok (.single (narrow (operator.onDoubles x y)))
    | _, _ => refused
  | some .double =>
    match left.asDouble?, right.asDouble? with
    | some x, some y => .ok (.double (operator.onDoubles x y))
    | _, _ => refused
  | _ => refused

end ArithmeticOperator

end EntityQuery
