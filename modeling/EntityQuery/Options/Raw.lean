import EntityQuery.Error.Cause
import EntityQuery.Text.Blank
import EntityQuery.Text.Percent

/-!
# Raw options

A query string is cut at its ampersands.  In each part a plus stands for a blank and percent
sequences for bytes; what does not begin with a dollar sign then belongs to the application and is
skipped.  The remaining parts are the clauses of the system options, kept as they were written and
in their order.  No option may appear twice or without a value.

A link to the next page is written from the clauses again, with another `$skip`.
-/

namespace EntityQuery

open Text

/-- The clauses of a query string in the order they appeared, at most one for each option. -/
structure RawOptions where
  clauses : List (SystemOption × String)
  deriving DecidableEq, Inhabited

namespace RawOptions

/-- No options. -/
def empty : RawOptions := ⟨[]⟩

/-- The text before the first equality sign, and the text behind it, which may be missing. -/
def splitClause (cs : List Char) : List Char × List Char :=
  (cs.takeWhile (· != '='), (cs.dropWhile (· != '=')).drop 1)

/-- The clause of an option, as supplied. -/
def clause? (raw : RawOptions) (option : SystemOption) : Option String := raw.clauses.lookup option

/-- The value in a clause. -/
def clauseValue (clause : String) : String := String.ofList (splitClause clause.toList).2

/-- The value of an option. -/
def value? (raw : RawOptions) (option : SystemOption) : Option String :=
  (raw.clause? option).map clauseValue

/-- The options present, in the order supplied. -/
def options (raw : RawOptions) : List SystemOption := raw.clauses.map Prod.fst

def isEmpty (raw : RawOptions) : Bool := raw.clauses.isEmpty

/-! ## Reading -/

/-- A plus stands for a blank. -/
def spaced (cs : List Char) : List Char := cs.map fun c => if c == '+' then ' ' else c

/-- The decoded text of a part. -/
def decodePart (part : List Char) : Except QueryError (List Char) :=
  match percentDecode (spaced part) with
  | .ok cs => .ok cs
  | .error problem => .error (.usage (.notUtf8 (String.ofList part) problem))

/-- Adds a decoded clause of a system option. -/
def addClause (raw : RawOptions) (cs : List Char) : Except QueryError RawOptions :=
  let (name, value) := splitClause cs
  match SystemOption.ofName? (String.ofList name) with
  | none => .error (.usage (.unknownOption (String.ofList name)))
  | some option =>
    if value.all isBlank then .error (.usage (.emptyOption option))
    else if (raw.clause? option).isSome then .error (.usage (.repeatedOption option))
    else .ok ⟨raw.clauses ++ [(option, String.ofList cs)]⟩

/-- Adds a part of a query string. -/
def addPart (raw : RawOptions) (part : List Char) : Except QueryError RawOptions := do
  let cs ← decodePart part
  -- The dollar sign may itself be written as a percent sequence.
  if cs.head? == some '$' then raw.addClause cs else return raw

/-- A query string without the question mark before it. -/
def dropMark : List Char → List Char
  | '?' :: rest => rest
  | cs => cs

/-- The parts of a query string that are not empty. -/
def parts (query : List Char) : List (List Char) :=
  ((dropMark query).splitOn '&').filter fun part => !part.isEmpty

/-- Reads a query string. -/
def parse (query : String) : Except QueryError RawOptions :=
  (parts query.toList).foldlM addPart empty

/-! ## Links -/

/-- An option in a link. -/
def linkPart (option : SystemOption) (value : List Char) : List Char :=
  option.name.toList ++ '=' :: percentEncode value

/-- The clauses with `$skip` replaced where it stands. -/
def skippedTo (skip : Nat) (raw : RawOptions) : List (SystemOption × List Char) :=
  raw.clauses.map fun (option, clause) =>
    (option, if option == .skip then (toString skip).toList else (splitClause clause.toList).2)

/-- The link to the page that begins at a place.  An option `$skip` that is missing is added last.
-/
def nextLink (raw : RawOptions) (path : String) (skip : Nat) : String :=
  let added :=
    if (raw.clause? .skip).isSome then [] else [(SystemOption.skip, (toString skip).toList)]
  let parts := (raw.skippedTo skip ++ added).map fun (option, value) => linkPart option value
  path ++ "?" ++ String.intercalate "&" (parts.map String.ofList)

end RawOptions

end EntityQuery
