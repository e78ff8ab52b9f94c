import EntityQuery.Error.Cause
import EntityQuery.Filter.Scan
import EntityQuery.Text.Alphanumeric

/-!
# Tokenizing a filter

A filter is cut into tokens from the left.  The rules are tried in order, the specific ones before
the general ones they overlap with; a rule applies if its scanner accepts and the character behind
what it takes is allowed there.  White space separates tokens and is dropped.
-/

namespace EntityQuery.Filter

/-- What may stand behind a token. -/
inductive Follow
  | anything
  | blankOrEnd
  | blankOrParen
  | openParen
  | wordEnd
  deriving DecidableEq

/-- Is a text allowed behind a token?  Only `openParen` asks for something to be there. -/
def Follow.accepts (follow : Follow) : List Char → Bool
  | [] => follow != .openParen
  | c :: _ =>
    match follow with
    | anything => true
    | blankOrEnd => Text.isBlank c
    | blankOrParen => Text.isBlank c || c == '('
    | openParen => c == '('
    | wordEnd => !(Text.isAlphanumeric c || c == '_')

/-! ## Scanners for the kinds of tokens -/

namespace Scan

/-- The quotation mark. -/
def quote : Char := '\x27'

/-- The words of the operators that are not logical. -/
def operator : Scan :=
  firstOf (["eq", "ne", "gt", "ge", "lt", "le", "has", "add", "sub", "mul", "div", "mod"].map
    fun w => word w.toList)

/-- A truth value. -/
def truth : Scan := firstOf [word "true".toList, word "false".toList]

/-- Bytes in base 64. -/
def isBase64Char (c : Char) : Bool := c.isAlphanum || c == '+' || c == '/'

/-- A string of bytes. -/
def binary : Scan :=
  inOrder [word "binary'".toList, many isBase64Char, optional (mark '='), optional (mark '='),
    mark quote]

/-- A component of a duration. -/
def component (unit : Char) : Scan := optional (inOrder [digits, mark unit])

/-- A fraction behind a number. -/
def fraction : Scan := inOrder [mark '.', digits]

/-- A duration. -/
def duration : Scan :=
  inOrder [word "duration'".toList, optional (mark '-'), mark 'P', component 'D',
    optional (inOrder [mark 'T', component 'H', component 'M',
      optional (inOrder [digits, optional fraction, mark 'S'])]),
    mark quote]

/-- A value of an enum: a qualified name and members between quotation marks. -/
def enumeration : Scan :=
  inOrder [name, mark '.', name, star (inOrder [mark '.', name]), mark quote, many (· != quote),
    mark quote]

/-- A date. -/
def date : Scan := inOrder [digitCount 4, mark '-', digitCount 2, mark '-', digitCount 2]

/-- A time of day. -/
def time : Scan :=
  inOrder [digitCount 2, mark ':', digitCount 2,
    optional (inOrder [mark ':', digitCount 2, optional fraction])]

/-- The offset of a clock. -/
def offset : Scan :=
  firstOf [mark 'Z', inOrder [markOf ['+', '-'], digitCount 2, mark ':', digitCount 2]]

/-- A date and a time. -/
def dateTime : Scan := inOrder [date, mark 'T', time, optional offset]

/-- A hexadecimal digit. -/
def isHexDigit (c : Char) : Bool :=
  c.isDigit || ('a' ≤ c && c ≤ 'f') || ('A' ≤ c && c ≤ 'F')

/-- A globally unique identifier. -/
def guid : Scan :=
  inOrder [exactly 8 isHexDigit, mark '-', exactly 4 isHexDigit, mark '-', exactly 4 isHexDigit,
    mark '-', exactly 4 isHexDigit, mark '-', exactly 12 isHexDigit]

/-- Digits after an optional minus. -/
def signedDigits : Scan := inOrder [optional (mark '-'), digits]

/-- A power of ten behind a number. -/
def exponent : Scan := inOrder [markOf ['e', 'E'], optional (markOf ['+', '-']), digits]

/-- A decimal. -/
def decimal : Scan := inOrder [signedDigits, optional fraction, markOf ['m', 'M']]

/-- A single. -/
def single : Scan := inOrder [signedDigits, optional fraction, optional exponent, markOf ['f', 'F']]

/-- A double: a number with an exponent, with a fraction, or with the letter of its kind. -/
def double : Scan :=
  let letter := markOf ['d', 'D']
  inOrder [signedDigits,
    firstOf [inOrder [optional fraction, exponent, optional letter],
      inOrder [fraction, optional letter], letter]]

/-- An integer. -/
def integer : Scan := inOrder [signedDigits, optional (markOf ['l', 'L'])]

/-- The length of the rest of a text, its closing mark included.  A doubled mark stands for one
inside the text, unless no mark closes the text behind it. -/
def textBody : Scan
  | [] => none
  | [c] => if c == quote then some 1 else none
  | c :: d :: rest =>
    if c == quote then
      if d == quote then some (((textBody rest).map (2 + ·)).getD 1) else some 1
    else (textBody (d :: rest)).map (1 + ·)

/-- A text. -/
def text : Scan := inOrder [mark quote, textBody]

/-- Names with slashes between them. -/
def path : Scan := inOrder [name, star (inOrder [mark '/', name])]

/-- A path of at least two names, the last of which is a quantifier. -/
def lambda : Scan := fun cs =>
  (path cs).filter fun n =>
    match ((cs.take n).splitOn '/').reverse with
    | last :: _ :: _ => last == "any".toList || last == "all".toList
    | _ => false

/-- A name and a colon. -/
def parameter : Scan := inOrder [name, mark ':']

end Scan

/-! ## Rules -/

/-- How to recognize a kind of token. -/
structure TokenRule where
  kind : TokenKind
  scan : Scan
  follow : Follow

/-- The rules, in the order in which they are tried. -/
def tokenRules : List TokenRule :=
  -- Marks and words.  What stands behind a word tells it from the name it may begin.
  [⟨.whitespace, .some1 Text.isAsciiBlank, .anything⟩,
    ⟨.openParen, .mark '(', .anything⟩,
    ⟨.closeParen, .mark ')', .anything⟩,
    ⟨.comma, .mark ',', .anything⟩,
    ⟨.and, .word "and".toList, .blankOrEnd⟩,
    ⟨.or, .word "or".toList, .blankOrEnd⟩,
    ⟨.not, .word "not".toList, .blankOrParen⟩,
    ⟨.binaryOperator, .operator, .blankOrEnd⟩,
    ⟨.boolean, .truth, .wordEnd⟩,
    ⟨.null, .word "null".toList, .wordEnd⟩,
    -- Literals, those that begin like another one before it.
    ⟨.binary, .binary, .anything⟩,
    ⟨.duration, .duration, .anything⟩,
    ⟨.enumeration, .enumeration, .anything⟩,
    ⟨.dateTimeOffset, .dateTime, .wordEnd⟩,
    ⟨.guid, .guid, .wordEnd⟩,
    ⟨.date, .date, .wordEnd⟩,
    ⟨.timeOfDay, .time, .wordEnd⟩,
    ⟨.decimal, .decimal, .wordEnd⟩,
    ⟨.single, .single, .wordEnd⟩,
    ⟨.double, .double, .wordEnd⟩,
    ⟨.integer, .integer, .wordEnd⟩,
    ⟨.string, .text, .anything⟩,
    -- Names, which a colon or a parenthesis behind them tells from paths.
    ⟨.lambda, .lambda, .openParen⟩,
    ⟨.lambdaParameter, .parameter, .anything⟩,
    ⟨.functionName, .name, .openParen⟩,
    ⟨.propertyPath, .path, .wordEnd⟩]

/-- The number of characters a rule takes off a text, if it applies. -/
def TokenRule.length? (rule : TokenRule) (cs : List Char) : Option Nat :=
  (rule.scan cs).filter fun n => 0 < n && rule.follow.accepts (cs.drop n)

/-- The kind and the length of the first token of a text. -/
def firstToken? (cs : List Char) : Option (TokenKind × Nat) :=
  tokenRules.findSome? fun rule => (rule.length? cs).map fun n => (rule.kind, n)

/-- The text a token keeps; a parameter goes without its colon. -/
def tokenText (kind : TokenKind) (source : List Char) : String :=
  String.ofList (if kind == .lambdaParameter then source.dropLast else source)

/-- The longest fragment that a message shows. -/
def maxFragment : Nat := 24

/-- What a message shows of a text that no rule applies to. -/
def fragment (cs : List Char) : String :=
  String.ofList ((cs.takeWhile fun c => !Text.isBlank c).take maxFragment)

/-- The tokens of a text that begins at a byte position, of which `skip` characters belong to the
token before it. -/
def tokenizeFrom (position skip : Nat) : List Char → Except QueryError (List Token)
  | [] => .ok []
  | c :: rest =>
    match skip with
    | skip + 1 => tokenizeFrom (position + c.utf8Size) skip rest
    | 0 =>
      match firstToken? (c :: rest) with
      | none => .error (.malformed (.unrecognized (fragment (c :: rest)) position))
      | some (kind, n) =>
        match tokenizeFrom (position + c.utf8Size) (n - 1) rest with
        | .error e => .error e
        | .ok tokens =>
          if kind == .whitespace then .ok tokens
          else .ok (⟨kind, tokenText kind ((c :: rest).take n), position⟩ :: tokens)

/-- The tokens of a filter. -/
def tokenize (input : String) : Except QueryError (List Token) := tokenizeFrom 0 0 input.toList

end EntityQuery.Filter
