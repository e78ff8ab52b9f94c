import EntityQuery.Guid
import EntityQuery.Number.DecimalArithmetic
import EntityQuery.Number.FloatText
import EntityQuery.Schema.EdmType
import EntityQuery.Time.Duration
import EntityQuery.Time.Instant

/-!
# Values

A value is what a field of a record holds, what a literal denotes and what an expression evaluates
to.  Records and collections nest, so values and records are defined together.  A record answers
every field name, with null for the ones it does not have; two records are the same only if they
have the same identity, whatever their fields hold.
-/

namespace EntityQuery

/-- The value of an enum: its type and its number. -/
structure EnumValue where
  type : TypeKey
  value : Int64
  deriving DecidableEq, Inhabited

/-- Are all flags of `flags` set? -/
def EnumValue.has (value flags : EnumValue) : Bool :=
  value.type == flags.type && value.value &&& flags.value == flags.value

mutual

/-- What a field can hold. -/
inductive Value
  | null
  | boolean (b : Bool)
  | byte (n : UInt8)
  | sbyte (n : Int8)
  | int16 (n : Int16)
  | int32 (n : Int32)
  | int64 (n : Int64)
  | single (x : Float32)
  | double (x : Float)
  | decimal (d : Decimal)
  | string (s : String)
  | binary (bytes : List UInt8)
  | date (d : Date)
  | dateTimeOffset (i : Instant)
  | timeOfDay (t : TimeOfDay)
  | duration (d : Duration)
  | guid (g : Guid)
  | enumeration (e : EnumValue)
  | record (r : Record)
  | collection (items : List Value)

/-- A record: its identity, its type, the way it shows itself in messages, and its fields. -/
inductive Record
  | mk (identity : Nat) (type : TypeKey) (debugText : String) (field : String → Value)

end

instance : Inhabited Value := ⟨.null⟩

instance : Inhabited Record := ⟨.mk 0 default "" fun _ => .null⟩

namespace Record

/-- What tells records apart. -/
def identity : Record → Nat
  | mk identity _ _ _ => identity

/-- The host type of a record. -/
def type : Record → TypeKey
  | mk _ type _ _ => type

/-- The text of a record in a message. -/
def debugText : Record → String
  | mk _ _ debugText _ => debugText

/-- The value of a field. -/
def field : Record → String → Value
  | mk _ _ _ field => field

/-- A record with the given fields, and null everywhere else. -/
def ofFields (identity : Nat) (type : TypeKey) (debugText : String)
    (fields : List (String × Value)) : Record :=
  mk identity type debugText fun name => (fields.lookup name).getD .null

@[simp]
theorem field_ofFields (identity : Nat) (type : TypeKey) (debugText : String)
    (fields : List (String × Value)) (name : String) :
    (ofFields identity type debugText fields).field name = (fields.lookup name).getD .null := rfl

end Record

namespace Value

def isNull : Value → Bool
  | null => true
  | _ => false

/-- The kind of a scalar value. -/
def primitiveKind? : Value → Option PrimitiveKind
  | boolean _ => some .boolean
  | byte _ => some .byte
  | sbyte _ => some .sbyte
  | int16 _ => some .int16
  | int32 _ => some .int32
  | int64 _ => some .int64
  | single _ => some .single
  | double _ => some .double
  | decimal _ => some .decimal
  | string _ => some .string
  | binary _ => some .binary
  | date _ => some .date
  | dateTimeOffset _ => some .dateTimeOffset
  | timeOfDay _ => some .timeOfDay
  | duration _ => some .duration
  | guid _ => some .guid
  | null | enumeration _ | record _ | collection _ => none

/-- The truth value. -/
def asBool? : Value → Option Bool
  | boolean b => some b
  | _ => none

/-- The text. -/
def asString? : Value → Option String
  | string s => some s
  | _ => none

/-- An integer of any width. -/
def asInt64? : Value → Option Int64
  | byte n => some (Int64.ofNat n.toNat)
  | sbyte n => some n.toInt64
  | int16 n => some n.toInt64
  | int32 n => some n.toInt64
  | int64 n => some n
  | _ => none

/-- A number that a decimal denotes exactly. -/
def asDecimal? : Value → Option Decimal
  | decimal d => some d
  | value => value.asInt64?.map Decimal.ofInt64

open Number in
/-- A decimal as a double.  The whole and the fractional part are converted apart, and the sum is
rounded again to the digits of the decimal. -/
def doubleOfDecimal (d : Decimal) : Float :=
  if d.scale == 0 then doubleOfInt d.signedCoefficient
  else
    let unit := 10 ^ d.scale
    let whole := doubleOfInt (d.coefficient / unit)
    let fraction := doubleOfInt (d.coefficient % unit) / doubleOfInt unit
    let magnitude :=
      if d.coefficient % unit == 0 then whole
      else wholeDouble .nearest ((whole + fraction) * doubleOfInt unit) / doubleOfInt unit
    if d.negative then -magnitude else magnitude

open Number in
/-- Any number as a double. -/
def asDouble? : Value → Option Float
  | single x => some (widen x)
  | double x => some x
  | decimal d => some (doubleOfDecimal d)
  | value => value.asInt64?.map fun n => doubleOfInt n.toInt

def isIntegral (value : Value) : Bool := value.asInt64?.isSome

def isFloating : Value → Bool
  | single _ | double _ => true
  | _ => false

def isNumeric (value : Value) : Bool :=
  value.isIntegral || value.isFloating || value.primitiveKind? == some .decimal

end Value

end EntityQuery
