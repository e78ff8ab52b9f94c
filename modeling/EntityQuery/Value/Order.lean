import EntityQuery.Value.Basic

/-!
# Order and equality of values

Numbers are compared with numbers of any kind: integers exactly, an integer or a decimal with a
decimal exactly, and anything with a floating point number as doubles.  Other scalars are compared
within their kind, enums within their type.  Null, records and collections have no place in the
order.

Equality asks for the same kind.  Records are equal by identity, collections element by element, and
floating point numbers as the processor sees them, so that one that is not a number differs from
itself.
-/

namespace EntityQuery.Value

open Number

/-- The order of two texts: by code points. -/
def compareStrings (s t : String) : Ordering := compareOfLessAndEq s t

/-- The order of two strings of bytes. -/
def compareBytes : List UInt8 → List UInt8 → Ordering
  | [], [] => .eq
  | [], _ :: _ => .lt
  | _ :: _, [] => .gt
  | a :: s, b :: t => (Ord.compare a b).then (compareBytes s t)

/-- The order of two numbers. -/
def compareNumbers? (a b : Value) : Option Ordering :=
  match a.asInt64?, b.asInt64? with
  | some m, some n => some (Ord.compare m.toInt n.toInt)
  | _, _ =>
    if !a.isFloating && !b.isFloating then
      match a.asDecimal?, b.asDecimal? with
      | some m, some n => some (m.compare n)
      | _, _ => none
    else
      match a.asDouble?, b.asDouble? with
      | some x, some y => compareDoubles? x y
      | _, _ => none

/-- The order of two values, if they have one. -/
def compare? (a b : Value) : Option Ordering :=
  if a.isNumeric && b.isNumeric then compareNumbers? a b
  else
    match a, b with
    | boolean x, boolean y => some (Ord.compare x y)
    | string x, string y => some (compareStrings x y)
    | binary x, binary y => some (compareBytes x y)
    | date x, date y => some (x.compare y)
    | dateTimeOffset x, dateTimeOffset y => some (x.compare y)
    | timeOfDay x, timeOfDay y => some (x.compare y)
    | duration x, duration y => some (x.compare y)
    | guid x, guid y => some (x.compare y)
    | enumeration x, enumeration y =>
      if x.type == y.type then some (Ord.compare x.value.toInt y.value.toInt) else none
    | _, _ => none

mutual

/-- Equality of values. -/
def eq : Value → Value → Bool
  | null, null => true
  | record r, record s => r.identity == s.identity
  | collection xs, collection ys => eqAll xs ys
  | enumeration x, enumeration y => x == y
  | single x, single y => x == y
  | double x, double y => x == y
  | a, b =>
    a.primitiveKind?.isSome && a.primitiveKind? == b.primitiveKind? && compare? a b == some .eq

/-- Equality element by element. -/
def eqAll : List Value → List Value → Bool
  | [], [] => true
  | x :: xs, y :: ys => eq x y && eqAll xs ys
  | _, _ => false

end

instance : BEq Value := ⟨eq⟩

end EntityQuery.Value
