import EntityQuery.Error.Report
import EntityQuery.Expression.Function
import EntityQuery.Expression.Operator
import EntityQuery.Filter.Token
import EntityQuery.Options.SystemOption
import EntityQuery.Text.Utf8
import EntityQuery.Value.DebugText

/-!
# Causes of errors

Every way in which building a model, reading a query or running it can fail, with what was found.
The wording is derived from the cause, one function per kind, so that everything else deals with
causes.
-/

namespace EntityQuery

open EntityQuery.Filter

/-- What is wrong with the description of the host types. -/
inductive ConfigurationError
  | unsupportedGeneric (name : String) (arguments : Nat) (path : String)
  | baseNotRecord (name : String) (found : EdmType)
  | nameClash (fullName : String) (first second : TypeKey)
  | duplicateSet (name : String)
  | setNotRecord (name : String) (found : EdmType)
  | inheritsFromItself (name : String)
  | missingKey (property set : String)
  deriving DecidableEq

def ConfigurationError.text : ConfigurationError → String
  | unsupportedGeneric name arguments path =>
    s!"The generic type '{name}' with {arguments} type argument(s) is not a supported " ++
      s!"sequence type ({path})"
  | baseNotRecord name found =>
    s!"The base type of '{name}' must be a record type, found " ++ found.debugText
  | nameClash fullName first second =>
    s!"The type name '{fullName}' is used by both '{first.path}' and '{second.path}'"
  | duplicateSet name => s!"The entity set '{name}' is already registered"
  | setNotRecord name found =>
    s!"The entity set '{name}' must be backed by a record type, found " ++ found.debugText
  | inheritsFromItself name => s!"The type '{name}' inherits from itself"
  | missingKey property set =>
    s!"The key property '{property}' of entity set '{set}' does not exist"

def ConfigurationError.report (cause : ConfigurationError) : Report := .configuration cause.text

/-- A name that the model does not have, or that does not lead where it should. -/
inductive ResolutionError
  | unknownSet (name : String)
  | unknownType (key : TypeKey)
  | unknownProperty (type name : String)
  | notNavigable (property path : String)
  | notExpandable (property path : String)
  | unknownEnum (name : String)
  | unknownMember (type member : String)
  | unknownFunction (name : String) (position : Nat)
  | notLambdaSource (path : String)
  deriving DecidableEq

def ResolutionError.report : ResolutionError → Report
  | unknownSet name => .resolution s!"The entity set '{name}' is not registered" name
  | unknownType key => .resolution s!"The type '{key.path}' is not part of the model" key.path
  | unknownProperty type name =>
    .resolution s!"The type '{type}' does not contain a property named '{name}'" name
  | notNavigable property path =>
    .resolution s!"The property '{property}' in the path '{path}' is not navigable" property
  | notExpandable property path =>
    .resolution
      s!"The property '{property}' in the path '{path}' is not navigable and cannot be expanded"
      property
  | unknownEnum name => .resolution s!"The enum type '{name}' is not part of the model" name
  | unknownMember type member =>
    .resolution s!"The enum type '{type}' does not have a member named '{member}'" member
  | unknownFunction name position =>
    .resolution s!"Unknown function '{name}' at position {position}" name
  | notLambdaSource path =>
    .resolution s!"The lambda source '{path}' is not a collection of complex values" path

/-- What is wrong with the text of a query. -/
inductive SyntaxError
  | unrecognized (fragment : String) (position : Nat)
  | unopened (position : Nat)
  | unclosed (position stop : Nat)
  | openGroup (position : Nat)
  | emptyFilter
  | missingLeft (operator : Token)
  | missingRight (operator : Token)
  | missingOperand
  | unexpected (token : Token)
  | emptyParentheses (position : Nat)
  | noArguments (function : Function) (position : Nat)
  | emptyArgument (function : Function) (position : Nat)
  | wrongArity (function : Function) (found position : Nat)
  | lambdaWithoutBody (token : Token)
  | notLambdaParameter (token : Token)
  | parameterInUse (parameter : Token)
  | parameterWithoutBody (parameter : Token)
  | bareParameter (name : String)
  | emptySegment (path : String)
  | invalidLiteral (text kind : String)
  | integerOutOfRange (text : String)
  | notLiteral (text : String) (kind : TokenKind)
  | operandTypes (operator left : String) (right : Option String)
  | argumentTypes (function : Function) (types : List String)
  | notPredicate (expression type : String)
  | invalidCount (found : String)
  | invalidFormat (found : String)
  | invalidNumber (option : SystemOption) (found : String)
  | emptyKey (value : String)
  | invalidDirection (path found : String)
  | extraWord (word item : String)
  | notOrderable (path : String)
  | emptyItem (option : SystemOption) (value : String)
  | selectedPath (item : String)
  deriving DecidableEq

def SyntaxError.report : SyntaxError → Report
  | unrecognized fragment position =>
    .malformedAt s!"Unrecognized input '{fragment}' at position {position}" position fragment
  | unopened position =>
    .malformedAt s!"Unbalanced parenthesis at position {position}" position ")"
  | unclosed position stop =>
    .malformedAt
      s!"Unbalanced parenthesis at position {position}: expected ')' before position {stop}"
      position
      "("
  | openGroup position =>
    .malformedAt s!"Unbalanced parenthesis at position {position}" position "("
  | emptyFilter => .malformed "The filter expression is empty"
  | missingLeft operator =>
    .malformedAt s!"Operator with no left-hand operand: {operator}" operator.position operator.value
  | missingRight operator =>
    .malformedAt s!"Operator with no right-hand operand: {operator}" operator.position
      operator.value
  | missingOperand => .malformed "Expected an operand at the end of the input"
  | unexpected token => .malformedAt s!"Unexpected token {token}" token.position token.value
  | emptyParentheses position =>
    .malformedAt s!"Empty parentheses at position {position}" position "()"
  | noArguments function position =>
    .malformedAt s!"The function '{function}' requires at least one parameter" position
      function.name
  | emptyArgument function position =>
    .malformedAt s!"Empty parameter in the call to '{function}' at position {position}" position
      function.name
  | wrongArity function found position =>
    .malformedAt
      s!"The function '{function}' takes {function.arityText} parameter(s), found {found}"
      position function.name
  | lambdaWithoutBody token =>
    .malformedAt s!"'{token.value}' requires a lambda body" token.position token.value
  | notLambdaParameter token =>
    .malformedAt s!"Expected a lambda parameter, found {token}" token.position token.value
  | parameterInUse parameter =>
    .malformedAt s!"The lambda parameter '{parameter.value}' is already in use" parameter.position
      parameter.value
  | parameterWithoutBody parameter =>
    .malformedAt s!"The lambda parameter '{parameter.value}' has no body" parameter.position
      parameter.value
  | bareParameter name =>
    .malformedIn s!"The lambda parameter '{name}' must be followed by a property" name
  | emptySegment path =>
    .malformedIn s!"The property path '{path}' contains an empty segment" path
  | invalidLiteral text kind => .malformedIn s!"The literal '{text}' is not a valid {kind}" text
  | integerOutOfRange text => .malformedIn s!"The integer literal '{text}' is out of range" text
  | notLiteral text kind =>
    .malformedIn s!"The token '{text}' of kind {kind.name} is not a literal" text
  | operandTypes operator left (some right) =>
    .malformedIn s!"The operator '{operator}' cannot be applied to '{left}' and '{right}'" operator
  | operandTypes operator left none =>
    .malformedIn s!"The operator '{operator}' cannot be applied to '{left}'" operator
  | argumentTypes function types =>
    .malformedIn
      (s!"The function '{function}' cannot be applied to (" ++ String.intercalate ", " types ++ ")")
      function.name
  | notPredicate expression type =>
    .malformed s!"The expression '{expression}' is of type '{type}', expected 'Edm.Boolean'"
  | invalidCount found =>
    .malformedIn s!"$count must be 'true' or 'false', found '{found}'" "$count"
  | invalidFormat found =>
    .malformedIn s!"$format must be 'json', 'xml' or a media type, found '{found}'" "$format"
  | invalidNumber option found =>
    .malformedIn s!"{option} must be a non-negative integer, found '{found}'" option.name
  | emptyKey value =>
    .malformedIn s!"The $orderby value '{value}' contains an empty item" "$orderby"
  | invalidDirection path found =>
    .malformedIn s!"Expected 'asc' or 'desc' after '{path}' in $orderby, found '{found}'" found
  | extraWord word item => .malformedIn s!"Unexpected '{word}' after '{item}' in $orderby" word
  | notOrderable path =>
    .malformedIn s!"Cannot order by '{path}': only primitive and enum properties are orderable" path
  | emptyItem option value =>
    .malformedIn s!"The {option} value '{value}' contains an empty item" option.name
  | selectedPath item =>
    .malformedIn s!"$select accepts single properties only, found '{item}'" item

/-- A request that can never succeed. -/
inductive UsageError
  | noModel
  | notInitialized
  | wrongRecords (found : TypeKey) (set : String) (expected : TypeKey)
  | noSampleData (set : String)
  | notUtf8 (part : String) (problem : Text.Utf8Problem)
  | unknownOption (name : String)
  | emptyOption (option : SystemOption)
  | repeatedOption (option : SystemOption)
  deriving DecidableEq

def UsageError.report : UsageError → Report
  | noModel => .usage "No model has been published" none
  | notInitialized => .usage "Executor not initialized. Call init() first." none
  | wrongRecords found set expected =>
    .usage
      (s!"The records are of type '{found.path}' but the entity set '{set}' holds " ++
        s!"'{expected.path}'")
      (some set)
  | noSampleData set => .usage s!"No sample data for the entity set '{set}'" (some set)
  | notUtf8 part problem =>
    .usage s!"The query option '{part}' is not valid percent-encoded UTF-8: {problem.message}" none
  | unknownOption name => .usage s!"Unknown system query option '{name}'" (some name)
  | emptyOption option => .usage s!"The query option '{option}' requires a value" (some option.name)
  | repeatedOption option =>
    .usage s!"The query option '{option}' is specified more than once" (some option.name)

/-- A query that a policy does not allow. -/
inductive ValidationError
  | optionNotAllowed (option : SystemOption)
  | topTooLarge (limit found : Nat)
  | operatorNotAllowed (operator : BinaryOperator)
  | unaryNotAllowed (operator : UnaryOperator)
  | functionNotAllowed (function : Function)
  deriving DecidableEq

def ValidationError.report : ValidationError → Report
  | optionNotAllowed option =>
    .validation s!"The query option '{option}' is not allowed" option.name
  | topTooLarge limit found =>
    .validation
      s!"The limit of '{limit}' for $top was exceeded, the requested value was '{found}'"
      SystemOption.top.name
  | operatorNotAllowed operator =>
    .validation s!"The operator '{operator}' is not allowed in $filter" operator.keyword
  | unaryNotAllowed operator =>
    .validation s!"The operator '{operator}' is not allowed in $filter" operator.keyword
  | functionNotAllowed function =>
    .validation s!"The function '{function}' is not allowed in $filter" function.name

/-- Why an expression has no value on a record, or a record no projection. -/
inductive EvalError
  | overflow (operator : BinaryOperator)
  | divisionByZero
  | incomparable (left right : Value)
  | operands (operator : BinaryOperator) (left right : Value)
  | logicalOperand (operator : BinaryOperator) (found : Value)
  | unaryOperand (operator : UnaryOperator) (found : Value)
  | arguments (function : Function) (found : List Value)
  | missingArgument (function : Function) (place : Nat) (found : List Value)
  | notTruth (expression : String) (found : Value)
  | unboundParameter (name : String)
  | cannotRead (property : String) (found : Value) (path : String)
  | lambdaSource (source : String) (found : Value)
  | lambdaElement (parameter : String) (found : Value)
  | notExpandable (property : String)
  | notExpanded (property : String) (found : Value)
  | notRecord (property : String) (found : Value)

def EvalError.text : EvalError → String
  | overflow operator => s!"Arithmetic overflow in '{operator}'"
  | divisionByZero => "Division by zero"
  | incomparable left right => s!"Cannot compare {left.debugText} with {right.debugText}"
  | operands operator left right =>
    s!"The operator '{operator}' cannot be applied to {left.debugText} and {right.debugText}"
  | logicalOperand operator found =>
    s!"The operator '{operator}' requires boolean operands, found {found.debugText}"
  | unaryOperand operator found =>
    s!"The operator '{operator}' requires a boolean operand, found {found.debugText}"
  | arguments function found | missingArgument function _ found =>
    s!"The function '{function}' cannot be applied to {Value.debugList found}"
  | notTruth expression found =>
    s!"The expression '{expression}' evaluated to {found.debugText} instead of a boolean"
  | unboundParameter name => s!"The lambda parameter '{name}' is not bound"
  | cannotRead property found path =>
    s!"Cannot read '{property}' from {found.debugText} in the path '{path}'"
  | lambdaSource source found =>
    s!"The lambda source '{source}' is not a collection: {found.debugText}"
  | lambdaElement parameter found =>
    s!"The lambda parameter '{parameter}' must range over records, found {found.debugText}"
  | notExpandable property => s!"The expanded property '{property}' does not hold records"
  | notExpanded property found =>
    s!"The expanded property '{property}' holds {found.debugText} instead of records"
  | notRecord property found =>
    s!"The property '{property}' holds {found.debugText} where a record was expected"

def EvalError.report (cause : EvalError) : Report := .evaluation cause.text

/-- Any cause. -/
inductive QueryError
  | configuration (cause : ConfigurationError)
  | malformed (cause : SyntaxError)
  | resolution (cause : ResolutionError)
  | usage (cause : UsageError)
  | validation (cause : ValidationError)
  | evaluation (cause : EvalError)

/-- What a client is told about an error. -/
def QueryError.report : QueryError → Report
  | configuration cause => cause.report
  | malformed cause => cause.report
  | resolution cause => cause.report
  | usage cause => cause.report
  | validation cause => cause.report
  | evaluation cause => cause.report

/-- The kind of an error. -/
def QueryError.kind : QueryError → ErrorKind
  | configuration _ => .configuration
  | malformed _ => .malformed
  | resolution _ => .resolution
  | usage _ => .usage
  | validation _ => .validation
  | evaluation _ => .evaluation

end EntityQuery
