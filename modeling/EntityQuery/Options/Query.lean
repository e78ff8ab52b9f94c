import EntityQuery.Filter.Parser
import EntityQuery.Options.OrderBy
import EntityQuery.Options.SelectExpand

/-!
# Queries

A query is the options of a query string together with the entity set they are about and the model
they are read against.  Each option is read when it is asked for, so a query can be formed, and its
raw options looked at, although one of them is wrong.
-/

namespace EntityQuery

open Number

/-- The largest number of records that can be skipped or asked for. -/
def maxCount : Nat := 2 ^ (64 : Nat) - 1

/-- The options of a query string, about an entity set. -/
structure Query where
  model : Model
  set : EntitySet
  raw : RawOptions
  deriving Inhabited

namespace Query

/-- Splits a query string and finds the entity set. -/
def parse (model : Model) (setName query : String) : Except QueryError Query := do
  let raw ← RawOptions.parse query
  let set ← model.entitySet setName
  return ⟨model, set, raw⟩

/-- The type of the queried records. -/
def type (query : Query) : TypeKey := query.set.entityType

/-- What an option says, if it is there. -/
def option (query : Query) (option : SystemOption) {α : Type}
    (read : String → Except QueryError α) : Except QueryError (Option α) :=
  match query.raw.value? option with
  | none => .ok none
  | some value => (read value).map some

/-- The filter. -/
def filter (query : Query) : Except QueryError (Option Expression) :=
  query.option .filter (Filter.parseFilter query.model query.type)

/-- The sort keys. -/
def orderBy (query : Query) : Except QueryError (List OrderKey) :=
  (query.option .orderBy (parseOrderBy query.model query.type)).map fun keys => keys.getD []

/-- The shape of the result. -/
def shape (query : Query) : Except QueryError Shape := Shape.parse query.model query.type query.raw

/-- A number of records. -/
def readCount (option : SystemOption) (value : String) : Except QueryError Nat :=
  match readUnsignedUpTo? maxCount (Text.trimChars value.toList) with
  | some n => .ok n
  | none => .error (.malformed (.invalidNumber option value))

/-- The number of records to leave out at the front. -/
def skip (query : Query) : Except QueryError (Option Nat) := query.option .skip (readCount .skip)

/-- The largest number of records to return. -/
def top (query : Query) : Except QueryError (Option Nat) := query.option .top (readCount .top)

/-- A flag. -/
def readFlag (value : String) : Except QueryError Bool :=
  if value == "true" then .ok true
  else if value == "false" then .ok false
  else .error (.malformed (.invalidCount value))

/-- Is the number of matching records asked for? -/
def count (query : Query) : Except QueryError Bool :=
  (query.option .count readFlag).map fun flag => flag.getD false

/-- A media type; the two usual ones have short names. -/
def readFormat (value : String) : Except QueryError String :=
  if value == "json" then .ok "application/json"
  else if value == "xml" then .ok "application/xml"
  else if value.toList.contains '/' then .ok value
  else .error (.malformed (.invalidFormat value))

/-- The media type of the answer. -/
def format (query : Query) : Except QueryError (Option String) := query.option .format readFormat

/-- The text to search for, which is not looked at. -/
def search (query : Query) : Option String := query.raw.value? .search

/-- The link to the page that begins at a place. -/
def nextLink (query : Query) (path : String) (skip : Nat) : String := query.raw.nextLink path skip

end Query

end EntityQuery
