import EntityQuery.Text.Quoted
import EntityQuery.Value.Basic

/-!
# Values in messages

A message shows a value with the name of its kind.  Texts and bytes are quoted, times and numbers
have their usual text, and a record shows itself.
-/

namespace EntityQuery

open Number Text

/-- A span of time as whole seconds and the nanoseconds after them. -/
def Duration.debugText (d : Duration) : String :=
  "TimeDelta \x7b secs: " ++ intText (d.nanos.fdiv 1000000000) ++ ", nanos: " ++
    intText (d.nanos.fmod 1000000000) ++ " \x7d"

/-- An enum value with its type. -/
def EnumValue.debugText (e : EnumValue) : String :=
  "EnumValue \x7b type_key: " ++ e.type.debugText ++ ", value: " ++ intText e.value.toInt ++ " \x7d"

namespace Value

/-- The text of a scalar or a record, without the name of its kind. -/
def contentText : Value → String
  | boolean b => toString b
  | byte n => toString n.toNat
  | sbyte n => intText n.toInt
  | int16 n => intText n.toInt
  | int32 n => intText n.toInt
  | int64 n => intText n.toInt
  | single x => binary32.messageText (singleView x)
  | double x => binary64.messageText (doubleView x)
  | decimal d => d.text
  | string s => quoted s
  | binary bytes => quotedBytes bytes
  | date d => d.text
  | dateTimeOffset i => i.exactText
  | timeOfDay t => t.text
  | duration d => d.debugText
  | guid g => g.text
  | enumeration e => e.debugText
  | record r => r.debugText
  | null | collection _ => ""

/-- The name of the kind of a value. -/
def kindText : Value → String
  | null => "Null"
  | enumeration _ => "Enum"
  | record _ => "Record"
  | collection _ => "Collection"
  | value => (value.primitiveKind?.map PrimitiveKind.name).getD ""

mutual

/-- A value in a message. -/
def debugText : Value → String
  | null => "Null"
  | collection items => "Collection([" ++ String.intercalate ", " (debugTexts items) ++ "])"
  | value => value.kindText ++ "(" ++ value.contentText ++ ")"

/-- The elements of a collection in a message. -/
def debugTexts : List Value → List String
  | [] => []
  | item :: items => debugText item :: debugTexts items

end

/-- A list of values in a message. -/
def debugList (items : List Value) : String :=
  "[" ++ String.intercalate ", " (debugTexts items) ++ "]"

end Value

end EntityQuery
