import EntityQuery.Expression.Tree

/-!
# Grouping by precedence

A clause without logical operators is a chain: operands with operators between them.  Grouping turns
the chain into a tree in which every operator binds the operands that no tighter operator claims,
and operators of one strength group from the left.

The tree grows one operator at a time.  A new operator goes down the right edge past all operators
that bind less tightly, and takes what it finds there as its left operand.
-/

namespace EntityQuery.Filter

/-- Operands joined by operators.  An operand may itself be an expression in parentheses, which is
not looked into. -/
inductive Chain
  | operand (e : Expression)
  | join (operator : BinaryOperator) (left right : Chain)
  deriving Inhabited

namespace Chain

/-- Adds an operator and an operand at the end. -/
def attach (operator : BinaryOperator) (e : Expression) : Chain → Chain
  | operand first => join operator (operand first) (operand e)
  | join other left right =>
    if other.precedence < operator.precedence then join other left (attach operator e right)
    else join operator (join other left right) (operand e)

/-- The grouping of a chain. -/
def group (first : Expression) (links : List (BinaryOperator × Expression)) : Chain :=
  links.foldl (fun chain link => attach link.1 link.2 chain) (operand first)

/-- The expression that a grouped chain denotes. -/
def toExpression : Chain → Expression
  | operand e => e
  | join operator left right => .binary operator left.toExpression right.toExpression

/-- The first operand of a chain. -/
def first : Chain → Expression
  | operand e => e
  | join _ left _ => left.first

/-- The operators of a chain, each with the operand behind it, from left to right. -/
def links : Chain → List (BinaryOperator × Expression)
  | operand _ => []
  | join operator left right => left.links ++ (operator, right.first) :: right.links

@[simp]
theorem first_attach (operator : BinaryOperator) (e : Expression) (chain : Chain) :
    (attach operator e chain).first = chain.first := by
  induction chain with
  | operand first => rfl
  | join other left right _ _ => unfold attach; split <;> rfl

@[simp]
theorem links_attach (operator : BinaryOperator) (e : Expression) (chain : Chain) :
    (attach operator e chain).links = chain.links ++ [(operator, e)] := by
  induction chain with
  | operand first => rfl
  | join other left right _ ih =>
    unfold attach
    split
    · simp [links, ih]
    · simp [links, first]

end Chain

end EntityQuery.Filter
