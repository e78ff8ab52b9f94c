import EntityQuery.Text.Base64
import EntityQuery.Text.Json
import EntityQuery.Value.Basic

/-!
# Values as JSON

Integers and floating point numbers become numbers, where a floating point number without a
magnitude becomes null.  Decimals, times, bytes and identifiers become texts, so that nothing of
them is lost.  An enum value becomes its number.  A record has no form of its own: it has to be
projected before.
-/

namespace EntityQuery

open Number Text

/-- A record that has not been projected. -/
structure UnprojectedRecord where
  type : TypeKey
  deriving DecidableEq, Inhabited

/-- The message about a record that has not been projected. -/
def UnprojectedRecord.message (found : UnprojectedRecord) : String :=
  s!"record of type '{found.type.path}' must be projected before serialization"

/-- Doubles in output: no power of ten from a hundred-thousandth up to sixteen digits. -/
def outputDoubleStyle : FloatStyle := ⟨-4, 16, ['+'], .toEven⟩

/-- Singles in output: no power of ten from a millionth up to thirteen digits. -/
def outputSingleStyle : FloatStyle := ⟨-5, 13, ['+'], .toEven⟩

/-- A floating point number in output. -/
def floatJson (style : FloatStyle) (format : FloatFormat) : FloatView → Json
  | .finite negative m e => .number (style.finiteText format negative m e)
  | .nan | .infinite _ => .null

/-- An integer in output. -/
def intJson (n : Int) : Json := .number (intText n)

namespace Value

mutual

/-- A value in output. -/
def toJson : Value → Except UnprojectedRecord Json
  | null => .ok .null
  | boolean b => .ok (.boolean b)
  | byte n => .ok (intJson n.toNat)
  | sbyte n => .ok (intJson n.toInt)
  | int16 n => .ok (intJson n.toInt)
  | int32 n => .ok (intJson n.toInt)
  | int64 n => .ok (intJson n.toInt)
  | single x => .ok (floatJson outputSingleStyle binary32 (singleView x))
  | double x => .ok (floatJson outputDoubleStyle binary64 (doubleView x))
  | decimal d => .ok (.string d.text)
  | string s => .ok (.string s)
  | binary bytes => .ok (.string (String.ofList (base64Encode bytes)))
  | date d => .ok (.string d.text)
  | dateTimeOffset i => .ok (.string i.text)
  | timeOfDay t => .ok (.string t.text)
  | duration d => .ok (.string d.text)
  | guid g => .ok (.string g.text)
  | enumeration e => .ok (intJson e.value.toInt)
  | record r => .error ⟨r.type⟩
  | collection items => do return .array (← toJsonAll items)

/-- The elements of a collection in output. -/
def toJsonAll : List Value → Except UnprojectedRecord (List Json)
  | [] => .ok []
  | item :: items => do
    let json ← toJson item
    return json :: (← toJsonAll items)

end

end Value

end EntityQuery
