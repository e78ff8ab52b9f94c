import EntityQuery.Schema.Model
import EntityQuery.Text.Base64
import EntityQuery.Text.Blank
import EntityQuery.Time.Layout

/-!
# Literals

A literal keeps its text exactly as it was written next to the value it denotes.  Its type is
missing for `null`, which has none of its own.

Each kind of literal has its own notation.  Numbers may end in letters that say their kind, quoted
kinds begin with a word, and an enum literal names a type of the model and members of it, whose
values are combined.
-/

namespace EntityQuery

open EntityQuery.Filter Number

/-- A literal in an expression. -/
structure Literal where
  type : Option EdmType
  text : String
  value : Value
  deriving Inhabited

namespace Literal

/-- A literal of a primitive kind. -/
def ofKind (kind : PrimitiveKind) (text : String) (value : Value) : Literal :=
  ⟨some (.primitive kind), text, value⟩

/-- The literal without a value. -/
def null : Literal := ⟨none, "null", .null⟩

/-- A literal that its notation does not allow. -/
def invalid (text kind : String) : Except QueryError Literal :=
  .error (.malformed (.invalidLiteral text kind))

/-- A literal of a primitive kind, if its text could be read. -/
def ofRead (kind : PrimitiveKind) (text what : String) : Option Value → Except QueryError Literal
  | some value => .ok (ofKind kind text value)
  | none => invalid text what

/-- The text without any of its last characters that are one of two letters. -/
def dropLetters (small capital : Char) (cs : List Char) : List Char :=
  (cs.reverse.dropWhile fun c => c == small || c == capital).reverse

/-- The quotation mark of texts. -/
def quote : Char := '\x27'

/-- The text between the quotation marks behind a word. -/
def quotedBody? (word : String) (cs : List Char) : Option (List Char) :=
  if word.toList.isPrefixOf cs then
    match cs.drop word.length with
    | c :: rest =>
      if c == quote && rest.getLast? == some quote then some rest.dropLast else none
    | [] => none
  else none

/-- Doubled quotation marks inside a text stand for one. -/
def unescape : List Char → List Char
  | a :: b :: rest => if a == quote && b == quote then quote :: unescape rest
    else a :: unescape (b :: rest)
  | cs => cs

/-! ## Kinds of literals -/

/-- Truth values. -/
def readBoolean (text : String) : Except QueryError Literal :=
  if text == "true" then .ok (ofKind .boolean "true" (.boolean true))
  else if text == "false" then .ok (ofKind .boolean "false" (.boolean false))
  else invalid text "boolean"

/-- The bounds of integers of a number of bits. -/
def readSigned? (bits : Nat) (cs : List Char) : Option Int :=
  readIntIn? (-(2 ^ (bits - 1))) (2 ^ (bits - 1) - 1) cs

/-- Integers.  A final letter asks for 64 bits; otherwise 32 bits are taken where they do. -/
def readInteger (text : String) : Except QueryError Literal :=
  let cs := text.toList
  let long (cs : List Char) : Except QueryError Literal :=
    match readSigned? 64 cs with
    | some n => .ok (ofKind .int64 text (.int64 (Int64.ofInt n)))
    | none => .error (.malformed (.integerOutOfRange text))
  match cs.getLast? with
  | some 'l' | some 'L' => long cs.dropLast
  | _ =>
    match readSigned? 32 cs with
    | some n => .ok (ofKind .int32 text (.int32 (Int32.ofInt n)))
    | none => long cs

/-- The value of one member of an enum literal: a name or a number. -/
def memberValue (type : EnumType) (typeName member : String) : Except QueryError Int64 :=
  match type.member? member with
  | some found => .ok found.value
  | none =>
    match readSigned? 64 member.toList with
    | some n => .ok (Int64.ofInt n)
    | none => .error (.resolution (.unknownMember typeName member))

/-- The combined value of members. -/
def combine (type : EnumType) (typeName : String) : List String → Except QueryError Int64
  | [] => .ok 0
  | member :: rest => do
    let value ← memberValue type typeName member
    return value ||| (← combine type typeName rest)

/-- Enum literals: the name of the type, and members between quotation marks. -/
def readEnum (model : Model) (text : String) : Except QueryError Literal := do
  let cs := text.toList
  let name := cs.takeWhile (· != quote)
  let rest := cs.drop (name.length + 1)
  if name.length == cs.length then throw (.malformed (.invalidLiteral text "enum"))
  let members := if rest.getLast? == some quote then rest.dropLast else rest
  let typeName := String.ofList name
  let type ← match model.enumTypeNamed? typeName with
    | some type => pure type
    | none => throw (.resolution (.unknownEnum typeName))
  let value ← combine type typeName
    ((members.splitOn ',').map fun member => String.ofList (Text.trimChars member))
  return ⟨some (.enumeration type.key), text, .enumeration ⟨type.key, value⟩⟩

/-- The text between quotation marks. -/
def readString? : List Char → Option Value
  | c :: rest =>
    if c == quote && rest.getLast? == some quote then
      some (.string (String.ofList (unescape rest.dropLast)))
    else none
  | [] => none

/-- The literal that a token denotes. -/
def ofToken (model : Model) (kind : TokenKind) (text : String) : Except QueryError Literal :=
  let cs := text.toList
  match kind with
  | .boolean => readBoolean text
  | .null => .ok null
  | .integer => readInteger text
  | .decimal =>
    ofRead .decimal text "decimal" ((Decimal.ofChars? (dropLetters 'm' 'M' cs)).map .decimal)
  | .double =>
    ofRead .double text "double"
      ((binary64.read? (dropLetters 'd' 'D' cs)).map fun v => .double (doubleOf v))
  | .single =>
    ofRead .single text "single"
      ((binary32.read? (dropLetters 'f' 'F' cs)).map fun v => .single (singleOf v))
  | .date => ofRead .date text "date" ((Time.readDate? cs).map .date)
  | .dateTimeOffset =>
    ofRead .dateTimeOffset text "date-time" ((Time.readInstant? cs).map .dateTimeOffset)
  | .timeOfDay => ofRead .timeOfDay text "time of day" ((Time.readTime? cs).map .timeOfDay)
  | .duration =>
    ofRead .duration text "duration"
      (((quotedBody? "duration" cs).bind Duration.ofChars?).map .duration)
  | .guid => ofRead .guid text "guid" ((Guid.ofChars? cs).map .guid)
  | .binary =>
    ofRead .binary text "binary" (((quotedBody? "binary" cs).bind Text.base64Decode?).map .binary)
  | .string => ofRead .string text "string" (readString? cs)
  | .enumeration => readEnum model text
  | other => .error (.malformed (.notLiteral text other))

end Literal

end EntityQuery
