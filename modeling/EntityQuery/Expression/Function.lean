import EntityQuery.Schema.EdmType

/-!
# Functions

The functions a filter may call: their names, how many arguments they take and the type of their
result for arguments of given types.  As for operators, a missing type belongs to the literal
`null`.
-/

namespace EntityQuery

/-- The functions a filter may call. -/
inductive Function
  | contains
  | startsWith
  | endsWith
  | length
  | indexOf
  | substring
  | toLower
  | toUpper
  | trim
  | concat
  | year
  | month
  | day
  | hour
  | minute
  | second
  | round
  | floor
  | ceiling
  deriving DecidableEq, Inhabited

namespace Function

/-- The name a function is called by. -/
def name : Function → String
  | contains => "contains"
  | startsWith => "startswith"
  | endsWith => "endswith"
  | length => "length"
  | indexOf => "indexof"
  | substring => "substring"
  | toLower => "tolower"
  | toUpper => "toupper"
  | trim => "trim"
  | concat => "concat"
  | year => "year"
  | month => "month"
  | day => "day"
  | hour => "hour"
  | minute => "minute"
  | second => "second"
  | round => "round"
  | floor => "floor"
  | ceiling => "ceiling"

instance : ToString Function := ⟨name⟩

/-- All functions. -/
def all : List Function :=
  [contains, startsWith, endsWith, length, indexOf, substring, toLower, toUpper, trim, concat, year,
    month, day, hour, minute, second, round, floor, ceiling]

/-- The function a name stands for. -/
def ofName? (text : String) : Option Function := all.find? fun function => function.name == text

/-- The smallest number of arguments. -/
def minArity : Function → Nat
  | contains | startsWith | endsWith | indexOf | concat | substring => 2
  | _ => 1

/-- The largest number of arguments. -/
def maxArity : Function → Nat
  | substring => 3
  | function => function.minArity

/-- May the function be called with this many arguments? -/
def accepts (function : Function) (count : Nat) : Bool :=
  function.minArity ≤ count && count ≤ function.maxArity

/-- The number of arguments in words. -/
def arityText (function : Function) : String :=
  if function.minArity == function.maxArity then toString function.minArity
  else toString function.minArity ++ " to " ++ toString function.maxArity

/-- Is there an argument at a place, and does its type fit? -/
def argumentFits (types : List (Option EdmType)) (place : Nat) (accept : PrimitiveKind → Bool) :
    Bool :=
  match types[place]? with
  | none => false
  | some none => true
  | some (some type) => type.primitiveKind?.any accept

def isText (kind : PrimitiveKind) : Bool := kind == .string

def hasDate (kind : PrimitiveKind) : Bool := kind == .date || kind == .dateTimeOffset

def hasTime (kind : PrimitiveKind) : Bool := kind == .timeOfDay || kind == .dateTimeOffset

/-- The kind of a rounded number: its own.  What is no primitive is taken for a double. -/
def roundedKind (type : Option EdmType) : Option PrimitiveKind :=
  match type.bind EdmType.primitiveKind? with
  | none => some .double
  | some kind => if kind.isNumeric then some kind else none

/-- The kind of the result, if the arguments fit. -/
def returnKind (function : Function) (types : List (Option EdmType)) : Option PrimitiveKind :=
  let fits := argumentFits types
  let giving (kind : PrimitiveKind) (condition : Bool) := if condition then some kind else none
  match function with
  | contains | startsWith | endsWith => giving .boolean (fits 0 isText && fits 1 isText)
  | length => giving .int32 (fits 0 isText)
  | indexOf => giving .int32 (fits 0 isText && fits 1 isText)
  | substring =>
    giving .string (fits 0 isText && fits 1 PrimitiveKind.isIntegral &&
      (types.length < 3 || fits 2 PrimitiveKind.isIntegral))
  | toLower | toUpper | trim => giving .string (fits 0 isText)
  | concat => giving .string (fits 0 isText && fits 1 isText)
  | year | month | day => giving .int32 (fits 0 hasDate)
  | hour | minute | second => giving .int32 (fits 0 hasTime)
  | round | floor | ceiling => types.head?.bind roundedKind

/-- The type of the result, if the arguments fit. -/
def returnType (function : Function) (types : List (Option EdmType)) : Option EdmType :=
  (function.returnKind types).map .primitive

/-- Names tell functions apart. -/
theorem ofName?_name (function : Function) : ofName? function.name = some function := by
  cases function <;> decide

end Function

end EntityQuery
