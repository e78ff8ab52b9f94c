import EntityQuery.Expression.Evaluation
import EntityQuery.Options.OrderBy

/-!
# Sorting

Records are sorted by several keys, the first of which weighs most.  The keys of all records are
read before any two of them are compared.  A key that is null stands before or after all others,
whatever the direction; keys that have no order among each other count as equal.

Each record is put behind those that are already sorted and moves forward as long as it belongs
before its neighbour.  Records that agree on all keys therefore keep their order.

All stable sorts give the same result if the comparison orders the records.  A floating point key
that is no number may tie with numbers that differ, and then the comparison is no order.  A sort is
free to arrange the records in any way in this case, or to give up and stop the program.  What
insertion makes of a few records is kept here, and no statement about sorted records should be read
as one about such keys.
-/

namespace EntityQuery

/-- Where the records without a key stand. -/
inductive NullOrder
  | first
  | last
  deriving DecidableEq, Inhabited

/-- A path to sort by, its direction and the place of the records without it. -/
structure SortKey where
  path : PropertyPath
  direction : Direction
  nulls : NullOrder
  deriving DecidableEq, Inhabited

namespace SortKey

/-- Null counts as smallest unless something else is said. -/
def ofOrderKey (key : OrderKey) : SortKey :=
  ⟨key.path, key.direction, match key.direction with
    | .ascending => .first
    | .descending => .last⟩

/-- The place of a missing key before one that is there. -/
def beforePresent : NullOrder → Ordering
  | .first => .lt
  | .last => .gt

/-- An order as seen in a direction. -/
def directed : Direction → Ordering → Ordering
  | .ascending, ordering => ordering
  | .descending, ordering => ordering.swap

/-- The order of two values of a key. -/
def compare (key : SortKey) (a b : Value) : Ordering :=
  match a.isNull, b.isNull with
  | true, true => .eq
  | true, false => beforePresent key.nulls
  | false, true => (beforePresent key.nulls).swap
  | false, false => directed key.direction ((a.compare? b).getD .eq)

/-- The order of two lists of values, one for each key. -/
def compareAll : List SortKey → List Value → List Value → Ordering
  | key :: keys, a :: as, b :: bs => (key.compare a b).then (compareAll keys as bs)
  | _, _, _ => .eq

/-- The values of keys on a record. -/
def values (record : Record) : List SortKey → Except EvalError (List Value)
  | [] => .ok []
  | key :: keys => do
    let value ← Expression.readPath key.path record
    return value :: (← values record keys)

end SortKey

namespace Sorting

/-- Puts an item behind sorted ones, which are given in reverse, and moves it forward. -/
def insertLast {α : Type} (before : α → α → Bool) (item : α) : List α → List α
  | [] => [item]
  | last :: rest =>
    if before item last then last :: insertLast before item rest else item :: last :: rest

/-- Sorts items one after another. -/
def sortedBy {α : Type} (before : α → α → Bool) (items : List α) : List α :=
  (items.foldl (fun sorted item => insertLast before item sorted) []).reverse

/-- A record next to the values of its keys. -/
abbrev Keyed := Record × List Value

/-- Does a record belong before another one? -/
def precedes (keys : List SortKey) (a b : Keyed) : Bool :=
  SortKey.compareAll keys a.2 b.2 == .lt

/-- Reads the keys of records. -/
def withKeys (keys : List SortKey) : List Record → Except EvalError (List Keyed)
  | [] => .ok []
  | record :: records => do
    let values ← SortKey.values record keys
    return (record, values) :: (← withKeys keys records)

/-- Sorts records by keys. -/
def sortRecords (keys : List SortKey) (records : List Record) : Except EvalError (List Record) := do
  let keyed ← withKeys keys records
  return (sortedBy (precedes keys) keyed).map Prod.fst

end Sorting

end EntityQuery
