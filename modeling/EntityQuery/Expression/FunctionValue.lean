import EntityQuery.Error.Cause
import EntityQuery.Text.Blank
import EntityQuery.Text.Casing
import EntityQuery.Text.Search

/-!
# Values of functions

What a function gives for arguments.  A null argument makes the result null, whatever the others
are.  A function asks for its arguments by place; one that is not there is an error of its own,
which reads like that of an argument that does not fit.  Texts are measured and cut in characters; a
place or length below zero counts as zero.
-/

namespace EntityQuery.Function

open Number

/-- The characters of a text. -/
def charsOf? : Value → Option (List Char)
  | .string s => some s.toList
  | _ => none

/-- A date as arguments give it. -/
def dateOf? : Value → Option Date
  | .date d => some d
  | .dateTimeOffset i => some i.date
  | _ => none

/-- The seconds since midnight as arguments give them. -/
def secondOfDay? : Value → Option Nat
  | .timeOfDay t => some t.seconds
  | .dateTimeOffset i => some i.secondOfDay
  | _ => none

/-- A number rounded to a whole number of its own kind. -/
def toWhole? (rule : WholeRule) (onDecimal : Decimal → Decimal) : Value → Option Value
  | .decimal d => some (.decimal (onDecimal d))
  | .double x => some (.double (wholeDouble rule x))
  | .single x => some (.single (narrow (wholeDouble rule (widen x))))
  | value => if value.isIntegral then some value else none

/-- A count of characters as a value. -/
def countValue (n : Nat) : Value := .int32 (Int32.ofNat n)

/-- The place of a text in another, or minus one. -/
def placeValue (part whole : List Char) : Value :=
  match Text.indexOf? part whole with
  | some place => countValue place
  | none => .int32 (-1)

/-- The part of a text from a place on, of a length if there is one. -/
def cut (start : Int64) (length : Option Int64) (cs : List Char) : List Char :=
  let tail := cs.drop start.toInt.toNat
  match length with
  | none => tail
  | some n => tail.take n.toInt.toNat

/-- The argument at a place, as the function reads it. -/
def argument {α : Type} (function : Function) (arguments : List Value) (read : Value → Option α)
    (place : Nat) : Except EvalError α :=
  match arguments[place]? with
  | none => .error (.missingArgument function place arguments)
  | some found =>
    match read found with
    | some a => .ok a
    | none => .error (.arguments function arguments)

/-- The value for arguments that are not null. -/
def value (function : Function) (arguments : List Value) : Except EvalError Value :=
  let text : Nat → Except EvalError (List Char) := function.argument arguments charsOf?
  let integer : Nat → Except EvalError Int64 := function.argument arguments Value.asInt64?
  let date : Nat → Except EvalError Date := function.argument arguments dateOf?
  let time : Nat → Except EvalError Nat := function.argument arguments secondOfDay?
  let ofText (result : List Char) : Value := .string (String.ofList result)
  match function with
  | contains => do return .boolean (Text.contains (← text 1) (← text 0))
  | startsWith => do return .boolean ((← text 1).isPrefixOf (← text 0))
  | endsWith => do return .boolean ((← text 1).isSuffixOf (← text 0))
  | length => do return countValue (← text 0).length
  | indexOf => do return placeValue (← text 1) (← text 0)
  | substring => do
    let start ← integer 1
    let whole ← text 0
    if arguments.length > 2 then return ofText (cut start (some (← integer 2)) whole)
    else return ofText (cut start none whole)
  | toLower => do return ofText (Text.lowerFrom [] (← text 0))
  | toUpper => do return ofText ((← text 0).flatMap Text.upperChar)
  | trim => do return ofText (Text.trimChars (← text 0))
  | concat => do return ofText ((← text 0) ++ (← text 1))
  | year => do return .int32 (Int32.ofInt (← date 0).year)
  | month => do return .int32 (Int32.ofNat (← date 0).month)
  | day => do return .int32 (Int32.ofNat (← date 0).day)
  | hour => do return .int32 (Int32.ofNat ((← time 0) / 3600))
  | minute => do return .int32 (Int32.ofNat ((← time 0) / 60 % 60))
  | second => do return .int32 (Int32.ofNat ((← time 0) % 60))
  | round => function.argument arguments (toWhole? .nearest Decimal.round) 0
  | floor => function.argument arguments (toWhole? .down Decimal.floor) 0
  | ceiling => function.argument arguments (toWhole? .up Decimal.ceiling) 0

/-- The value for arguments. -/
def apply (function : Function) (arguments : List Value) : Except EvalError Value :=
  if arguments.any Value.isNull then .ok .null else function.value arguments

end EntityQuery.Function
