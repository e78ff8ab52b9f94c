import EntityQuery.Options.Query

/-!
# Policies

A query that can be read need not be allowed.  A policy says which options a query may have, which
operators and functions its filter may use, and how many records it may ask for.  What a policy says
nothing about is allowed.

A query is checked in this order: the options present, the number of records asked for, and the
filter, in which every expression comes before those inside it.
-/

namespace EntityQuery

/-- What a query may use.  A list that is missing allows everything. -/
structure Policy where
  options : Option (List SystemOption)
  operators : Option (List BinaryOperator)
  unaryOperators : Option (List UnaryOperator)
  functions : Option (List Function)
  maxTop : Option Nat
  deriving Inhabited

namespace Policy

/-- The policy that allows everything. -/
def unrestricted : Policy := ⟨none, none, none, none, none⟩

/-- Is something in a list, or is there no list? -/
def allows {α : Type} [DecidableEq α] (list : Option (List α)) (item : α) : Bool :=
  list.all fun allowed => allowed.contains item

/-- The first option of a query that is not allowed. -/
def forbiddenOption? (policy : Policy) (raw : RawOptions) : Option SystemOption :=
  raw.options.find? fun option => !allows policy.options option

/-- What is wrong with a number of records asked for. -/
def topFault? (policy : Policy) (top : Option Nat) : Option ValidationError :=
  match top, policy.maxTop with
  | some found, some limit => if found > limit then some (.topTooLarge limit found) else none
  | _, _ => none

/-- What is wrong with an expression, apart from those inside it. -/
def nodeFault? (policy : Policy) : Expression → Option ValidationError
  | .binary operator _ _ =>
    if allows policy.operators operator then none else some (.operatorNotAllowed operator)
  | .unary operator _ =>
    if allows policy.unaryOperators operator then none else some (.unaryNotAllowed operator)
  | .call function _ =>
    if allows policy.functions function then none else some (.functionNotAllowed function)
  | _ => none

/-- What is first found wrong with a filter. -/
def filterFault? (policy : Policy) (filter : Expression) : Option ValidationError :=
  filter.nodes.findSome? policy.nodeFault?

/-- Fails if something is wrong. -/
def refuse : Option ValidationError → Except QueryError Unit
  | none => .ok ()
  | some fault => .error (.validation fault)

/-- Checks a query.  An option that cannot be read fails with its own error. -/
def check (policy : Policy) (query : Query) : Except QueryError Unit := do
  refuse ((policy.forbiddenOption? query.raw).map .optionNotAllowed)
  refuse (policy.topFault? (← query.top))
  refuse ((← query.filter).bind policy.filterFault?)

end Policy

end EntityQuery
