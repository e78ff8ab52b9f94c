/-!
# Tokens

The pieces of a filter expression.  A token keeps its text, without the colon in the case of a
lambda parameter, and the byte offset at which it starts.
-/

namespace EntityQuery.Filter

/-- The kinds of tokens. -/
inductive TokenKind
  | openParen
  | closeParen
  | comma
  | and
  | or
  | not
  | binaryOperator
  | boolean
  | null
  | binary
  | date
  | dateTimeOffset
  | timeOfDay
  | guid
  | decimal
  | double
  | single
  | duration
  | enumeration
  | integer
  | string
  | lambda
  | lambdaParameter
  | functionName
  | propertyPath
  | whitespace
  deriving DecidableEq, Inhabited

namespace TokenKind

/-- The name of a kind. -/
def name : TokenKind → String
  | openParen => "OpenParen"
  | closeParen => "CloseParen"
  | comma => "Comma"
  | and => "And"
  | or => "Or"
  | not => "Not"
  | binaryOperator => "BinaryOperator"
  | boolean => "Boolean"
  | null => "Null"
  | binary => "Binary"
  | date => "Date"
  | dateTimeOffset => "DateTimeOffset"
  | timeOfDay => "TimeOfDay"
  | guid => "Guid"
  | decimal => "Decimal"
  | double => "Double"
  | single => "Single"
  | duration => "Duration"
  | enumeration => "Enum"
  | integer => "Integer"
  | string => "String"
  | lambda => "Lambda"
  | lambdaParameter => "LambdaParameter"
  | functionName => "FunctionName"
  | propertyPath => "PropertyPath"
  | whitespace => "Whitespace"

/-- Kinds of tokens that denote a value. -/
def isLiteral : TokenKind → Bool
  | boolean | null | binary | date | dateTimeOffset | timeOfDay | guid | decimal | double | single
  | duration | enumeration | integer | string => true
  | _ => false

/-- The tokens that join clauses. -/
def isLogical : TokenKind → Bool
  | and | or => true
  | _ => false

/-- All kinds. -/
def all : List TokenKind :=
  [openParen, closeParen, comma, and, or, not, binaryOperator, boolean, null, binary, date,
    dateTimeOffset, timeOfDay, guid, decimal, double, single, duration, enumeration, integer,
    string, lambda, lambdaParameter, functionName, propertyPath, whitespace]

/-- The kind with a given name. -/
def ofName? (text : String) : Option TokenKind := all.find? fun kind => kind.name == text

end TokenKind

/-- A token and the byte offset at which it starts. -/
structure Token where
  kind : TokenKind
  value : String
  position : Nat
  deriving DecidableEq, Inhabited

/-- A token in a message. -/
def Token.text (token : Token) : String :=
  "'" ++ token.value ++ "' at position " ++ toString token.position

instance : ToString Token := ⟨Token.text⟩

end EntityQuery.Filter
