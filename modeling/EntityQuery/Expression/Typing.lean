import EntityQuery.Expression.Tree

/-!
# Types of expressions

The type of an expression follows from the types of its operands.  `null` and a computation with it
have no type of their own and fit everywhere.  The body of a lambda and the filter itself have to be
truth values.
-/

namespace EntityQuery.Expression

/-- The name of an operand's type in a message. -/
def describeType (model : Model) (type : Option EdmType) : String :=
  (type.map model.typeName).getD "null"

/-- Operands that an operator does not accept. -/
def operandError (model : Model) (operator : String) (left right : Option EdmType) : QueryError :=
  .malformed (.operandTypes operator (describeType model left) (right.map model.typeName))

/-- The type of a binary operation.  A computation with an operand without type has no type, as long
as the other operand is a number. -/
def binaryType (model : Model) (operator : BinaryOperator) (left right : Option EdmType) :
    Except QueryError (Option EdmType) :=
  if operator.isArithmetic && (left.isNone || right.isNone) then
    if (left.or right).all EdmType.isNumeric then .ok none
    else .error (operandError model operator.keyword left right)
  else
    match operator.outputType left right with
    | some type => .ok (some type)
    | none => .error (operandError model operator.keyword left right)

/-- Accepts truth values and what has no type. -/
def expectTruth (model : Model) (e : Expression) (type : Option EdmType) : Except QueryError Unit :=
  match type with
  | none => .ok ()
  | some type =>
    if type.isBoolean then .ok ()
    else .error (.malformed (.notPredicate e.text (model.typeName type)))

mutual

/-- The type of an expression. -/
def check (model : Model) : Expression → Except QueryError (Option EdmType)
  | literal constant => .ok constant.type
  | path steps _ => .ok (some steps.terminal.type)
  | binary operator left right => do
    let leftType ← check model left
    let rightType ← check model right
    binaryType model operator leftType rightType
  | unary operator operand => do
    let type ← check model operand
    match operator.outputType type with
    | some output => return some output
    | none => throw (operandError model operator.keyword type none)
  | call function arguments => do
    let types ← checkAll model arguments
    match function.returnType types with
    | some type => return some type
    | none =>
      throw (.malformed (.argumentTypes function (types.map (describeType model))))
  | lambda _ _ _ none => .ok (some .boolean)
  | lambda _ _ _ (some body) => do
    expectTruth model body (← check model body)
    return some .boolean

/-- The types of the arguments of a call. -/
def checkAll (model : Model) : List Expression → Except QueryError (List (Option EdmType))
  | [] => .ok []
  | e :: es => do
    let type ← check model e
    return type :: (← checkAll model es)

end

/-- Accepts an expression that can be used as a filter. -/
def checkPredicate (model : Model) (e : Expression) : Except QueryError Unit := do
  expectTruth model e (← check model e)

end EntityQuery.Expression
