import EntityQuery.Expression.Typing
import EntityQuery.Filter.Chain
import EntityQuery.Filter.Lexer

/-!
# Reading a filter

An expression is cut at its top level into clauses joined by `and` and `or`, which group strictly
from the left.  A leading `not` negates the rest of its clause.  What remains of a clause is a chain
of operands, grouped by precedence.  Groups in parentheses, the arguments of a call and the body of
a lambda are expressions again.

Parentheses are checked once, before anything else.  Paths are resolved while reading: a path that
begins with the parameter of an enclosing lambda belongs to the element the parameter stands for,
and every other one to the type that is filtered.
-/

namespace EntityQuery.Filter

/-- What a filter may refer to: the filtered type and the parameters of the enclosing lambdas. -/
structure Scope where
  type : TypeKey
  parameters : List (String × TypeKey)
  deriving Inhabited

/-- The type of the element that a parameter stands for. -/
def Scope.parameter? (scope : Scope) (name : String) : Option TypeKey :=
  scope.parameters.lookup name

/-- The scope inside a lambda. -/
def Scope.bind (scope : Scope) (name : String) (type : TypeKey) : Scope :=
  { scope with parameters := (name, type) :: scope.parameters }

/-! ## Parentheses -/

/-- Every parenthesis that opens is closed, and none closes that was not opened.  The positions of
the open ones are given, innermost first. -/
def checkBalance (stop : Nat) (opened : List Nat) : List Token → Except QueryError Unit
  | [] =>
    match opened with
    | [] => .ok ()
    | position :: _ => .error (.malformed (.unclosed position stop))
  | token :: rest =>
    match token.kind with
    | .openParen => checkBalance stop (token.position :: opened) rest
    | .closeParen =>
      match opened with
      | [] => .error (.malformed (.unopened token.position))
      | _ :: outer => checkBalance stop outer rest
    | _ => checkBalance stop opened rest

/-- The depth behind a token. -/
def depthAfter (depth : Nat) (token : Token) : Nat :=
  match token.kind with
  | .openParen => depth + 1
  | .closeParen => depth - 1
  | _ => depth

/-- Cuts tokens at those of a kind that stand outside of all parentheses.  The pieces come with the
token before them. -/
def splitOutside (isCut : Token → Bool) (depth : Nat) :
    List Token → List Token × List (Token × List Token)
  | [] => ([], [])
  | token :: rest =>
    if depth == 0 && isCut token then
      let (piece, more) := splitOutside isCut 0 rest
      ([], (token, piece) :: more)
    else
      let (piece, more) := splitOutside isCut (depthAfter depth token) rest
      (token :: piece, more)

/-- The tokens up to the parenthesis that closes the current group, inside which `depth` groups are
open, and those behind it. -/
def untilClose? (depth : Nat) : List Token → Option (List Token × List Token)
  | [] => none
  | token :: rest =>
    let keep (depth : Nat) := (untilClose? depth rest).map fun (inside, after) =>
      (token :: inside, after)
    match token.kind, depth with
    | .openParen, _ => keep (depth + 1)
    | .closeParen, 0 => some ([], rest)
    | .closeParen, depth + 1 => keep depth
    | _, _ => keep depth

/-- The tokens inside the group that a token opens, and those behind the group. -/
def takeGroup (opening : Token) (rest : List Token) : Except QueryError (List Token × List Token) :=
  if opening.kind != .openParen then .error (.malformed (.unexpected opening))
  else
    match untilClose? 0 rest with
    | some parts => .ok parts
    | none => .error (.malformed (.openGroup opening.position))

/-- The group that has to follow a token. -/
def groupAfter (token : Token) : List Token → Except QueryError (List Token × List Token)
  | [] => .error (.malformed (.unexpected token))
  | opening :: rest => takeGroup opening rest

/-! ## Paths -/

/-- The text before the first slash, and the text behind it if there is one. -/
def splitHead (text : String) : String × Option String :=
  let cs := text.toList
  let head := cs.takeWhile (· != '/')
  (String.ofList head,
    if head.length == cs.length then none else some (String.ofList (cs.drop (head.length + 1))))

/-- The text before the last slash and the text behind it. -/
def splitLast? (text : String) : Option (String × String) :=
  let reversed := text.toList.reverse
  let last := reversed.takeWhile (· != '/')
  if last.length == reversed.length then none
  else some (String.ofList (reversed.drop (last.length + 1)).reverse, String.ofList last.reverse)

/-- A path and the parameter it begins at. -/
def resolvePath (model : Model) (scope : Scope) (text : String) :
    Except QueryError (PropertyPath × Option String) := do
  let (head, tail) := splitHead text
  match scope.parameter? head, tail with
  | none, _ => return (← model.resolvePath scope.type text, none)
  | some _, none => throw (.malformed (.bareParameter head))
  | some element, some tail => return (← model.resolvePath element tail, some head)

/-! ## Expressions, given how to read the ones inside them -/

/-- How to read an expression inside the current one. -/
abbrev InnerReader := Scope → List Token → Except QueryError Expression

/-- The arguments of a call, from the first piece and the pieces behind commas.  An empty piece is
the fault of the comma behind it, or of the last comma. -/
def readArguments (read : List Token → Except QueryError Expression) (function : Function)
    (before : Option Token) (piece : List Token) :
    List (Token × List Token) → Except QueryError (List Expression)
  | [] =>
    match piece, before with
    | [], some comma => .error (.malformed (.emptyArgument function comma.position))
    | [], none => .ok []
    | _ :: _, _ => do return [← read piece]
  | (comma, next) :: more => do
    if piece.isEmpty then throw (.malformed (.emptyArgument function comma.position))
    let argument ← read piece
    return argument :: (← readArguments read function (some comma) next more)

/-- A call of a function. -/
def readCall (inner : InnerReader) (scope : Scope) (name : Token) (rest : List Token) :
    Except QueryError (Expression × List Token) := do
  match Function.ofName? name.value with
  | none => throw (.resolution (.unknownFunction name.value name.position))
  | some function =>
    let (inside, after) ← groupAfter name rest
    if inside.isEmpty then throw (.malformed (.noArguments function name.position))
    let (piece, more) := splitOutside (·.kind == .comma) 0 inside
    let arguments ← readArguments (inner scope) function none piece more
    if !function.accepts arguments.length then
      throw (.malformed (.wrongArity function arguments.length name.position))
    return (.call function arguments, after)

/-- The type of the elements that a lambda over a path ranges over. -/
def elementKey (sourceText : String) (path : PropertyPath) : Except QueryError TypeKey :=
  match path.terminal.type.isCollection, path.terminal.type.complexKey? with
  | true, some key => .ok key
  | _, _ => .error (.resolution (.notLambdaSource sourceText))

/-- What stands between the parentheses of a lambda: its parameter and its body, or nothing. -/
def readLambdaBody (inner : InnerReader) (scope : Scope) (element : TypeKey)
    (quantifier : Quantifier) (token : Token) :
    List Token → Except QueryError (String × Option Expression)
  | [] =>
    match quantifier with
    | .any => .ok ("", none)
    | .all => .error (.malformed (.lambdaWithoutBody token))
  | parameter :: body => do
    if parameter.kind != .lambdaParameter then throw (.malformed (.notLambdaParameter parameter))
    if (scope.parameter? parameter.value).isSome then
      throw (.malformed (.parameterInUse parameter))
    if body.isEmpty then throw (.malformed (.parameterWithoutBody parameter))
    return (parameter.value, some (← inner (scope.bind parameter.value element) body))

/-- A lambda. -/
def readLambda (model : Model) (inner : InnerReader) (scope : Scope) (token : Token)
    (rest : List Token) : Except QueryError (Expression × List Token) := do
  match splitLast? token.value with
  | none => throw (.malformed (.unexpected token))
  | some (sourceText, keyword) =>
    match Quantifier.ofKeyword? keyword with
    | none => throw (.malformed (.unexpected token))
    | some quantifier =>
      let (path, root) ← resolvePath model scope sourceText
      let element ← elementKey sourceText path
      let (inside, after) ← groupAfter token rest
      let (parameter, body) ← readLambdaBody inner scope element quantifier token inside
      return (.lambda quantifier (.path path root) parameter body, after)

/-- The operand at the front, and the tokens behind it. -/
def readOperand (model : Model) (inner : InnerReader) (scope : Scope) :
    List Token → Except QueryError (Expression × List Token)
  | [] => .error (.malformed .missingOperand)
  | token :: rest =>
    match token.kind with
    | .openParen => do
      let (inside, after) ← takeGroup token rest
      if inside.isEmpty then throw (.malformed (.emptyParentheses token.position))
      return (← inner scope inside, after)
    | .functionName => readCall inner scope token rest
    | .lambda => readLambda model inner scope token rest
    | .propertyPath => do
      let (path, root) ← resolvePath model scope token.value
      return (.path path root, rest)
    | kind =>
      if kind.isLiteral then do
        return (.literal (← Literal.ofToken model kind token.value), rest)
      else .error (.malformed (.unexpected token))

/-- The operators and operands behind the first operand, at most `limit` of them. -/
def readLinks (model : Model) (inner : InnerReader) (scope : Scope) :
    Nat → List Token → Except QueryError (List (BinaryOperator × Expression))
  | _, [] => .ok []
  | 0, token :: _ => .error (.malformed (.unexpected token))
  | limit + 1, token :: rest =>
    if token.kind != .binaryOperator then .error (.malformed (.unexpected token))
    else
      match BinaryOperator.ofKeyword? token.value with
      | none => .error (.malformed (.unexpected token))
      | some operator => do
        if rest.isEmpty then throw (.malformed (.missingRight token))
        let (operand, after) ← readOperand model inner scope rest
        return (operator, operand) :: (← readLinks model inner scope limit after)

/-- A chain of operands. -/
def readChain (model : Model) (inner : InnerReader) (scope : Scope) (tokens : List Token) :
    Except QueryError Expression := do
  let (first, rest) ← readOperand model inner scope tokens
  let links ← readLinks model inner scope rest.length rest
  return (Chain.group first links).toExpression

/-- A clause: any number of `not` before a chain. -/
def readClause (model : Model) (inner : InnerReader) (scope : Scope) :
    List Token → Except QueryError Expression
  | [] => readChain model inner scope []
  | token :: rest =>
    if token.kind == .not then
      if rest.isEmpty then .error (.malformed (.missingRight token))
      else (readClause model inner scope rest).map (.unary .not)
    else readChain model inner scope (token :: rest)

/-- The operator that joins two clauses. -/
def joiningOperator (token : Token) : BinaryOperator := if token.kind == .and then .and else .or

/-- The clauses behind the first one, joined from the left. -/
def joinClauses (clause : List Token → Except QueryError Expression) (root : Expression) :
    List (Token × List Token) → Except QueryError Expression
  | [] => .ok root
  | (token, tokens) :: more => do
    if tokens.isEmpty then throw (.malformed (.missingRight token))
    let right ← clause tokens
    joinClauses clause (.binary (joiningOperator token) root right) more

/-- An expression, given how to read the ones inside it. -/
def readWith (model : Model) (inner : InnerReader) (scope : Scope) (tokens : List Token) :
    Except QueryError Expression := do
  let (first, more) := splitOutside (·.kind.isLogical) 0 tokens
  -- Nothing at all is told apart from an operator that lacks its left operand.
  if first.isEmpty then
    match more with
    | (token, _) :: _ => throw (.malformed (.missingLeft token))
    | [] => throw (.malformed .emptyFilter)
  let root ← readClause model inner scope first
  joinClauses (readClause model inner scope) root more

/-! ## Filters -/

/-- An expression with at most `depth` levels of expressions inside each other. -/
def readNested (model : Model) : Nat → InnerReader
  | 0, _, _ => .error (.malformed .emptyFilter)
  | depth + 1, scope, tokens => readWith model (readNested model depth) scope tokens

/-- The expression that tokens form.  Every inner expression has fewer tokens than the one around
it. -/
def readTokens (model : Model) (scope : Scope) (tokens : List Token) :
    Except QueryError Expression :=
  readNested model (tokens.length + 1) scope tokens

/-- Reads a filter over records of a type, without looking at the types of its parts. -/
def parse (model : Model) (type : TypeKey) (input : String) : Except QueryError Expression := do
  let tokens ← tokenize input
  if tokens.isEmpty then throw (.malformed .emptyFilter)
  checkBalance input.utf8ByteSize [] tokens
  readTokens model ⟨type, []⟩ tokens

/-- Reads a filter over records of a type, whose value has to be a truth value. -/
def parseFilter (model : Model) (type : TypeKey) (input : String) :
    Except QueryError Expression := do
  let e ← parse model type input
  e.checkPredicate model
  return e

end EntityQuery.Filter
