/-!
# Primitive kinds

The scalar types of the entity data model.  Numeric kinds are ranked by width; arithmetic over two
of them happens in the wider one, and small integers widen to 32 bits first.
-/

namespace EntityQuery

/-- The scalar types of the entity data model. -/
inductive PrimitiveKind
  | binary
  | boolean
  | byte
  | date
  | dateTimeOffset
  | decimal
  | double
  | duration
  | guid
  | int16
  | int32
  | int64
  | sbyte
  | single
  | string
  | timeOfDay
  deriving DecidableEq, Inhabited

namespace PrimitiveKind

/-- The name of a kind without its namespace. -/
def name : PrimitiveKind → String
  | binary => "Binary"
  | boolean => "Boolean"
  | byte => "Byte"
  | date => "Date"
  | dateTimeOffset => "DateTimeOffset"
  | decimal => "Decimal"
  | double => "Double"
  | duration => "Duration"
  | guid => "Guid"
  | int16 => "Int16"
  | int32 => "Int32"
  | int64 => "Int64"
  | sbyte => "SByte"
  | single => "Single"
  | string => "String"
  | timeOfDay => "TimeOfDay"

/-- All kinds, ordered by name. -/
def all : List PrimitiveKind :=
  [binary, boolean, byte, date, dateTimeOffset, decimal, double, duration, guid, int16, int32,
    int64, sbyte, single, string, timeOfDay]

/-- The kind with a given name. -/
def ofName? (text : String) : Option PrimitiveKind := all.find? fun kind => kind.name == text

/-- The qualified name of a kind. -/
def fullName (kind : PrimitiveKind) : String := "Edm." ++ kind.name

instance : ToString PrimitiveKind := ⟨fullName⟩

/-- Kinds whose values may be absent unless a field says otherwise. -/
def isReference : PrimitiveKind → Bool
  | string | binary => true
  | _ => false

/-- Whole numbers. -/
def isIntegral : PrimitiveKind → Bool
  | byte | sbyte | int16 | int32 | int64 => true
  | _ => false

/-- Numbers. -/
def isNumeric : PrimitiveKind → Bool
  | decimal | double | single => true
  | kind => kind.isIntegral

/-- The width of a numeric kind, for choosing between two. -/
def rank : PrimitiveKind → Nat
  | byte | sbyte => 1
  | int16 => 2
  | int32 => 3
  | int64 => 4
  | decimal => 5
  | single => 6
  | double => 7
  | _ => 0

/-- Small integers are computed with 32 bits. -/
def widened : PrimitiveKind → PrimitiveKind
  | byte | sbyte | int16 => int32
  | kind => kind

/-- The kind in which two numeric kinds meet. -/
def promote (k l : PrimitiveKind) : Option PrimitiveKind :=
  if k.isNumeric && l.isNumeric then some (if k.rank ≥ l.rank then k else l).widened else none

/-- Names tell kinds apart. -/
theorem ofName?_name (kind : PrimitiveKind) : ofName? kind.name = some kind := by
  cases kind <;> decide

/-- It does not matter which operand comes first. -/
theorem promote_comm (k l : PrimitiveKind) : promote k l = promote l k := by
  cases k <;> cases l <;> rfl

end PrimitiveKind

end EntityQuery
