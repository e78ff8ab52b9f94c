import EntityQuery.Schema.HostType

/-!
# Model types

The types of the entity data model.  Record types, here called complex, and enum types are referred
to by their keys; what the keys stand for is in the model.
-/

namespace EntityQuery

/-- A type of the entity data model. -/
inductive EdmType
  | primitive (kind : PrimitiveKind)
  | complex (key : TypeKey)
  | collection (element : EdmType)
  | enumeration (key : TypeKey)
  deriving DecidableEq, Inhabited

namespace EdmType

/-- The type of truth values. -/
def boolean : EdmType := primitive .boolean

def isCollection : EdmType → Bool
  | collection _ => true
  | _ => false

/-- The type of the elements of a collection; a type that is not a collection is its own element. -/
def elementType : EdmType → EdmType
  | collection element => element
  | type => type

/-- The record type that a type is, or that its elements have. -/
def complexKey? (type : EdmType) : Option TypeKey :=
  match type.elementType with
  | complex key => some key
  | _ => none

def primitiveKind? : EdmType → Option PrimitiveKind
  | primitive kind => some kind
  | _ => none

def isBoolean : EdmType → Bool
  | primitive .boolean => true
  | _ => false

def isNumeric : EdmType → Bool
  | primitive kind => kind.isNumeric
  | _ => false

/-- A type inside a message about the model. -/
def debugText : EdmType → String
  | primitive kind => "Primitive(" ++ kind.name ++ ")"
  | complex key => "Complex(" ++ key.debugText ++ ")"
  | collection element => "Collection(" ++ element.debugText ++ ")"
  | enumeration key => "Enum(" ++ key.debugText ++ ")"

theorem isBoolean_iff {type : EdmType} : type.isBoolean = true ↔ type = boolean := by
  cases type with
  | primitive kind => cases kind <;> simp [isBoolean, boolean]
  | _ => simp [isBoolean, boolean]

/-- Only a record type and a collection of one have a record type inside. -/
theorem complexKey?_eq_some_iff {type : EdmType} {key : TypeKey} :
    type.complexKey? = some key ↔ type = complex key ∨ type = collection (complex key) := by
  cases type with
  | collection element => cases element <;> simp [complexKey?, elementType]
  | _ => simp [complexKey?, elementType]

end EdmType

end EntityQuery
