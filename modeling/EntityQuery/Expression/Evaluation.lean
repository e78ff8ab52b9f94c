import EntityQuery.Expression.Arithmetic
import EntityQuery.Expression.FunctionValue
import EntityQuery.Expression.Tree
import EntityQuery.Value.Order

/-!
# Evaluation

The value of an expression on a record.  Null is a value for equality, is never before or after
anything, and spreads through everything that computes.  The logical operators have three truth
values, and the right operand is looked at only if the left one does not decide.  A lambda asks the
elements of its source in order and stops at the first that decides.
-/

namespace EntityQuery

/-- The records that the parameters of the enclosing lambdas stand for, innermost first. -/
abbrev Bindings := List (String × Record)

namespace Expression

/-! ## Operators on values -/

/-- Equality, with null as a value. -/
def equal (left right : Value) : Except EvalError Bool :=
  match left, right with
  | .null, .null => .ok true
  | .null, _ | _, .null => .ok false
  | .record _, .record _ | .collection _, .collection _ => .ok (left == right)
  | _, _ =>
    match left.compare? right with
    | some ordering => .ok (ordering == .eq)
    | none => .error (.incomparable left right)

/-- A comparison by order, which null never passes. -/
def ordered (left right : Value) (accept : Ordering → Bool) : Except EvalError Value :=
  if left.isNull || right.isNull then .ok (.boolean false)
  else
    match left.compare? right with
    | some ordering => .ok (.boolean (accept ordering))
    | none => .error (.incomparable left right)

/-- A test for flags. -/
def hasFlags (left right : Value) : Except EvalError Value :=
  match left, right with
  | .null, _ | _, .null => .ok .null
  | .enumeration value, .enumeration flags =>
    if value.type == flags.type then .ok (.boolean (value.has flags))
    else .error (.operands .has left right)
  | _, _ => .error (.operands .has left right)

/-- A computation, through which null spreads. -/
def compute (operator : ArithmeticOperator) (left right : Value) : Except EvalError Value :=
  if left.isNull || right.isNull then .ok .null else operator.apply left right

/-- A truth value, or null, as an operand of a logical operator. -/
def logicalOperand (operator : BinaryOperator) : Value → Except EvalError (Option Bool)
  | .boolean b => .ok (some b)
  | .null => .ok none
  | other => .error (.logicalOperand operator other)

/-- The truth value at which a logical operator needs no further operand. -/
def deciding (operator : BinaryOperator) : Bool := operator == .or

/-- Three-valued `and` and `or`: one deciding operand is enough, and null leaves it open. -/
def combineTruth (operator : BinaryOperator) (left right : Option Bool) : Value :=
  if left == some (deciding operator) || right == some (deciding operator) then
    .boolean (deciding operator)
  else if left.isSome && right.isSome then .boolean (!deciding operator)
  else .null

/-- A logical operator on two values. -/
def joinTruth (operator : BinaryOperator) (left right : Value) : Except EvalError Value := do
  let l ← logicalOperand operator left
  let r ← logicalOperand operator right
  return combineTruth operator l r

/-- A binary operator that is not logical. -/
def applyBinary (operator : BinaryOperator) (left right : Value) : Except EvalError Value :=
  match operator with
  | .eq => (equal left right).map .boolean
  | .ne => (equal left right).map fun b => .boolean (!b)
  | .gt => ordered left right Ordering.isGT
  | .ge => ordered left right Ordering.isGE
  | .lt => ordered left right Ordering.isLT
  | .le => ordered left right Ordering.isLE
  | .has => hasFlags left right
  | .add => compute .add left right
  | .sub => compute .sub left right
  | .mul => compute .mul left right
  | .div => compute .div left right
  | .mod => compute .mod left right
  | .and | .or => joinTruth operator left right

/-- A unary operator. -/
def applyUnary (operator : UnaryOperator) (operand : Value) : Except EvalError Value :=
  match operator, operand with
  | .not, .null => .ok .null
  | .not, .boolean b => .ok (.boolean (!b))
  | .not, other => .error (.unaryOperand .not other)

/-! ## Paths -/

/-- Walks the further properties of a path; null on the way makes the whole path null. -/
def walk (pathText : String) : Value → List Property → Except EvalError Value
  | value, [] => .ok value
  | .null, _ :: _ => .ok .null
  | .record r, property :: rest => walk pathText (r.field property.name) rest
  | other, property :: _ => .error (.cannotRead property.name other pathText)

/-- The value at the end of a path from a record. -/
def readPath (path : PropertyPath) (root : Record) : Except EvalError Value :=
  walk path.text (root.field path.first.name) path.rest

/-- The record that a path begins at. -/
def rootOf (record : Record) (bindings : Bindings) : Option String → Except EvalError Record
  | none => .ok record
  | some name =>
    match bindings.lookup name with
    | some found => .ok found
    | none => .error (.unboundParameter name)

/-! ## Lambdas -/

/-- The elements of the source of a lambda; an absent collection has none. -/
def elementsOf (source : Expression) : Value → Except EvalError (List Value)
  | .collection items => .ok items
  | .null => .ok []
  | other => .error (.lambdaSource source.text other)

/-- The truth of a predicate: null counts as false. -/
def truthOf (e : Expression) : Value → Except EvalError Bool
  | .boolean b => .ok b
  | .null => .ok false
  | other => .error (.notTruth e.text other)

/-- Asks elements in order until one decides: a true one for `any`, one that is not true for `all`.
-/
def quantify (quantifier : Quantifier) (parameter : String)
    (test : Record → Except EvalError Bool) : List Value → Except EvalError Value
  | [] => .ok (.boolean (quantifier == .all))
  | .record r :: rest => do
    let matched ← test r
    match quantifier, matched with
    | .any, true => return .boolean true
    | .all, false => return .boolean false
    | _, _ => quantify quantifier parameter test rest
  | other :: _ => .error (.lambdaElement parameter other)

/-! ## Expressions -/

/-- Does the left operand of a logical operator decide on its own? -/
def leftDecides (operator : BinaryOperator) : Value → Bool
  | .boolean b => operator.isLogical && b == deciding operator
  | _ => false

mutual

/-- The value of an expression on a record, inside lambdas. -/
def evaluate (record : Record) (bindings : Bindings) : Expression → Except EvalError Value
  | literal constant => .ok constant.value
  | path steps parameter => do readPath steps (← rootOf record bindings parameter)
  | binary operator left right => do
    let leftValue ← evaluate record bindings left
    if leftDecides operator leftValue then return leftValue
    let rightValue ← evaluate record bindings right
    applyBinary operator leftValue rightValue
  | unary operator operand => do applyUnary operator (← evaluate record bindings operand)
  | call function arguments => do function.apply (← evaluateAll record bindings arguments)
  | lambda _ source _ none => do
    let items ← elementsOf source (← evaluate record bindings source)
    return .boolean (!items.isEmpty)
  | lambda quantifier source parameter (some body) => do
    let items ← elementsOf source (← evaluate record bindings source)
    quantify quantifier parameter
      (fun element => do truthOf body (← evaluate record ((parameter, element) :: bindings) body))
      items

/-- The values of the arguments of a call. -/
def evaluateAll (record : Record) (bindings : Bindings) :
    List Expression → Except EvalError (List Value)
  | [] => .ok []
  | e :: es => do
    let value ← evaluate record bindings e
    return value :: (← evaluateAll record bindings es)

end

/-- The value of an expression on a record. -/
def evaluateOn (e : Expression) (record : Record) : Except EvalError Value := evaluate record [] e

/-- Does a record pass a filter? -/
def test (e : Expression) (record : Record) : Except EvalError Bool := do
  truthOf e (← e.evaluateOn record)

end Expression

end EntityQuery
