import EntityQuery.Schema.EdmType

/-!
# Operators

The operators of filter expressions, their binding strength and the types they accept.  The type of
an operand is missing when the operand is the literal `null`, which fits everywhere.

The logical operators have no strength of their own: an expression is cut at them before its clauses
are looked at.
-/

namespace EntityQuery

/-- The operators between two operands. -/
inductive BinaryOperator
  | eq
  | ne
  | gt
  | ge
  | lt
  | le
  | has
  | add
  | sub
  | mul
  | div
  | mod
  | and
  | or
  deriving DecidableEq, Inhabited

namespace BinaryOperator

/-- The word an operator is written as. -/
def keyword : BinaryOperator → String
  | eq => "eq"
  | ne => "ne"
  | gt => "gt"
  | ge => "ge"
  | lt => "lt"
  | le => "le"
  | has => "has"
  | add => "add"
  | sub => "sub"
  | mul => "mul"
  | div => "div"
  | mod => "mod"
  | and => "and"
  | or => "or"

instance : ToString BinaryOperator := ⟨keyword⟩

/-- All operators. -/
def all : List BinaryOperator :=
  [eq, ne, gt, ge, lt, le, has, add, sub, mul, div, mod, and, or]

/-- The operator a word stands for. -/
def ofKeyword? (word : String) : Option BinaryOperator :=
  all.find? fun operator => operator.keyword == word

/-- The binding strength inside a clause; a larger one binds tighter. -/
def precedence : BinaryOperator → Nat
  | has => 5
  | mul | div | mod => 4
  | add | sub => 3
  | gt | ge | lt | le => 2
  | eq | ne => 1
  | and | or => 0

/-- Operators that compare two values. -/
def isComparison : BinaryOperator → Bool
  | eq | ne | gt | ge | lt | le => true
  | _ => false

/-- Operators that compute a number. -/
def isArithmetic : BinaryOperator → Bool
  | add | sub | mul | div | mod => true
  | _ => false

/-- Operators that join truth values. -/
def isLogical : BinaryOperator → Bool
  | and | or => true
  | _ => false

/-- Values of two types can be compared: the types agree, or both are numeric. -/
def comparable (left right : EdmType) : Bool :=
  left == right || (left.isNumeric && right.isNumeric)

/-- Types that have an order and not only equality. -/
def hasOrder : EdmType → Bool
  | .complex _ | .collection _ => false
  | _ => true

/-- The type of a comparison for equality. -/
def equalityType (left right : Option EdmType) : Option EdmType :=
  match left, right with
  | some l, some r => if comparable l r then some .boolean else none
  | _, _ => some .boolean

/-- The type of a comparison by order. -/
def orderType (left right : Option EdmType) : Option EdmType :=
  if left.all hasOrder && right.all hasOrder then equalityType left right else none

/-- The type of a test for flags. -/
def hasType (left right : Option EdmType) : Option EdmType :=
  match left, right with
  | some (.enumeration l), some (.enumeration r) => if l == r then some .boolean else none
  | some (.enumeration _), none => some .boolean
  | _, _ => none

/-- The type of a computation: the kind in which two numeric kinds meet, or that of the only one. -/
def arithmeticType (left right : Option EdmType) : Option EdmType :=
  match left, right with
  | some (.primitive l), some (.primitive r) => (l.promote r).map .primitive
  | some (.primitive k), none | none, some (.primitive k) =>
    if k.isNumeric then some (.primitive k) else none
  | _, _ => none

/-- The type of an application, if the operands fit. -/
def outputType (operator : BinaryOperator) (left right : Option EdmType) : Option EdmType :=
  match operator with
  | and | or =>
    if left.all EdmType.isBoolean && right.all EdmType.isBoolean then some .boolean else none
  | eq | ne => equalityType left right
  | gt | ge | lt | le => orderType left right
  | has => hasType left right
  | add | sub | mul | div | mod => arithmeticType left right

/-- Words tell operators apart. -/
theorem ofKeyword?_keyword (operator : BinaryOperator) :
    ofKeyword? operator.keyword = some operator := by
  cases operator <;> decide

end BinaryOperator

/-- The operators before an operand. -/
inductive UnaryOperator
  | not
  deriving DecidableEq, Inhabited

namespace UnaryOperator

/-- The word an operator is written as. -/
def keyword : UnaryOperator → String
  | not => "not"

instance : ToString UnaryOperator := ⟨keyword⟩

/-- The type of an application, if the operand fits. -/
def outputType (operator : UnaryOperator) (operand : Option EdmType) : Option EdmType :=
  match operator with
  | not => if operand.all EdmType.isBoolean then some .boolean else none

end UnaryOperator

/-- The quantifiers over the elements of a collection. -/
inductive Quantifier
  | any
  | all
  deriving DecidableEq, Inhabited

namespace Quantifier

/-- The word a quantifier is written as. -/
def keyword : Quantifier → String
  | any => "any"
  | all => "all"

instance : ToString Quantifier := ⟨keyword⟩

/-- The quantifier a word stands for. -/
def ofKeyword? (word : String) : Option Quantifier :=
  if word == "any" then some any else if word == "all" then some all else none

end Quantifier

end EntityQuery
