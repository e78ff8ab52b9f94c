import EntityQuery.Expression.Literal

/-!
# Expressions

The tree of a filter expression.  A path begins at the record that is filtered, or at the parameter
of a lambda.  A lambda ranges over the elements of a collection; one without a body asks whether
there are any.

An expression is printed with parentheses around every operator, so its grouping is visible.
-/

namespace EntityQuery

/-- A filter expression. -/
inductive Expression
  | binary (operator : BinaryOperator) (left right : Expression)
  | unary (operator : UnaryOperator) (operand : Expression)
  | literal (constant : Literal)
  | path (steps : PropertyPath) (parameter : Option String)
  | call (function : Function) (arguments : List Expression)
  | lambda (quantifier : Quantifier) (source : Expression) (parameter : String)
      (body : Option Expression)
  deriving Inhabited

namespace Expression

/-- The text of a path behind its root. -/
def pathText (path : PropertyPath) : Option String → String
  | none => path.text
  | some parameter => parameter ++ "/" ++ path.text

mutual

/-- The text of an expression. -/
def text : Expression → String
  | binary operator left right => s!"({left.text} {operator} {right.text})"
  | unary operator operand => s!"({operator} {operand.text})"
  | literal constant => constant.text
  | path steps parameter => pathText steps parameter
  | call function arguments =>
    function.name ++ "(" ++ String.intercalate ", " (texts arguments) ++ ")"
  | lambda quantifier source _ none => source.text ++ "/" ++ quantifier.keyword ++ "()"
  | lambda quantifier source parameter (some body) =>
    source.text ++ "/" ++ quantifier.keyword ++ "(" ++ parameter ++ ": " ++ body.text ++ ")"

/-- The texts of the arguments of a call. -/
def texts : List Expression → List String
  | [] => []
  | e :: es => e.text :: texts es

end

instance : ToString Expression := ⟨text⟩

mutual

/-- An expression and all expressions inside it, each before those inside it, from left to right. -/
def nodes : Expression → List Expression
  | e@(binary _ left right) => e :: (left.nodes ++ right.nodes)
  | e@(unary _ operand) => e :: operand.nodes
  | e@(call _ arguments) => e :: nodesOfAll arguments
  | e@(lambda _ source _ none) => e :: source.nodes
  | e@(lambda _ source _ (some body)) => e :: (source.nodes ++ body.nodes)
  | e => [e]

/-- The expressions inside the arguments of a call. -/
def nodesOfAll : List Expression → List Expression
  | [] => []
  | e :: es => e.nodes ++ nodesOfAll es

end

end Expression

end EntityQuery
