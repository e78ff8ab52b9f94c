import EntityQuery.Schema.Property

/-!
# Record and enum types of a model

A record type lists all its properties, inherited ones included, ordered by name.  An enum type
lists its members in the order they were declared; the members of a flags enum combine bitwise.
-/

namespace EntityQuery

/-- A record type of a model. -/
structure ComplexType where
  key : TypeKey
  space : String
  name : String
  base : Option TypeKey
  properties : List Property
  deriving DecidableEq, Inhabited

namespace ComplexType

/-- The name with its namespace. -/
def fullName (type : ComplexType) : String := type.space ++ "." ++ type.name

/-- The property with a given name. -/
def property? (type : ComplexType) (name : String) : Option Property :=
  type.properties.find? fun property => property.name == name

/-- The properties that the type itself declares. -/
def declaredProperties (type : ComplexType) : List Property :=
  type.properties.filter fun property => property.declaringType == type.key

end ComplexType

/-- A member of an enum type. -/
structure EnumMember where
  name : String
  value : Int64
  deriving DecidableEq, Inhabited

/-- An enum type of a model. -/
structure EnumType where
  key : TypeKey
  space : String
  name : String
  isFlags : Bool
  members : List EnumMember
  deriving DecidableEq, Inhabited

namespace EnumType

/-- The name with its namespace. -/
def fullName (type : EnumType) : String := type.space ++ "." ++ type.name

/-- The member with a given name. -/
def member? (type : EnumType) (name : String) : Option EnumMember :=
  type.members.find? fun member => member.name == name

/-- Are all bits of `part` set in `value`? -/
def covers (value part : Int64) : Bool := value &&& part == part

/-- The members that a combined value contains; a member without bits is in none. -/
def parts (type : EnumType) (value : Int64) : List EnumMember :=
  type.members.filter fun member => member.value != 0 && covers value member.value

/-- The name of a value: the member that has it, or for flags the members it contains. -/
def formatValue (type : EnumType) (value : Int64) : Option String :=
  match type.members.find? fun member => member.value == value with
  | some member => some member.name
  | none =>
    let parts := type.parts value
    if type.isFlags && !parts.isEmpty then
      some (String.intercalate "," (parts.map EnumMember.name))
    else none

end EnumType

end EntityQuery
