import EntityQuery.Execution.Page
import EntityQuery.Proofs.Execution.StableSort

/-!
# Answering a query with lists

This is the meaning of the options without pipelines.  The options are read in a fixed order, and
the first that is wrong decides.  Then the records are filtered, sorted and cut, each time as a
whole list, and those that are left are projected.  An error in one of these steps is the answer,
and of several errors in one step it is the first.

A list program is given a way to sort.  What is known of it is that it sorts stably.
-/

namespace EntityQuery.ListProgram

variable {α : Type}

/-- The items of a list that pass a test, unless the test fails on one of them. -/
def keep (test : α → Except QueryError Bool) : List α → Except QueryError (List α)
  | [] => .ok []
  | a :: as => do
    let passes ← test a
    let others ← keep test as
    return if passes then a :: others else others

/-- The items of a list behind a place, and only so many of them. -/
def page (skip : Nat) (top : Option Nat) (as : List α) : List α :=
  match top with
  | none => as.drop skip
  | some top => (as.drop skip).take top

/-- The place behind a page, if something is left there. -/
def nextPlace (skip : Nat) (top : Option Nat) (total : Nat) : Option Nat :=
  match top with
  | none => none
  | some top => if min (skip + top) maxCount < total then some (min (skip + top) maxCount) else none

/-- Does a record pass a filter? -/
def passes (predicate : Expression) (record : Record) : Except QueryError Bool :=
  (predicate.test record).mapError .evaluation

/-- A record next to the values it is sorted by. -/
def withValues (keys : List SortKey) (record : Record) : Except QueryError Sorting.Keyed := do
  let values ← keys.mapM fun key => (Expression.readPath key.path record).mapError .evaluation
  return (record, values)

/-- A way to sort records by keys. -/
abbrev Sorter := List SortKey → List Sorting.Keyed → List Sorting.Keyed

/-- The comparison of records by the values of their keys, the first of which weighs most. -/
def compareKeyed (keys : List SortKey) (a b : Sorting.Keyed) : Ordering :=
  SortKey.compareAll keys a.2 b.2

/-- A sort is stable: where the comparison of the keys orders the records it gives their stably
sorted form.  Where it does not, nothing is said of how the records are arranged. -/
def Sorter.IsStable (sort : Sorter) : Prop :=
  ∀ keys keyed, Sorting.StablySorted (compareKeyed keys) keyed (sort keys keyed)

/-- The records that pass the filter, if there is one. -/
def filtered (filter : Option Expression) (records : List Record) :
    Except QueryError (List Record) :=
  match filter with
  | none => .ok records
  | some predicate => keep (passes predicate) records

/-- The records in the order that is asked for, if one is. -/
def arranged (sort : Sorter) (keys : Option (List SortKey)) (records : List Record) :
    Except QueryError (List Record) :=
  match keys with
  | none => .ok records
  | some keys => do
    let keyed ← records.mapM (withValues keys)
    return (sort keys keyed).map Prod.fst

/-- The answer to a query. -/
def answer (sort : Sorter) (query : Query) (recordType : TypeKey) (records : List Record) :
    Except QueryError Page := do
  if query.type ≠ recordType then
    throw (.usage (.wrongRecords recordType query.set.name query.type))
  let filter ← query.filter
  let orderBy ← query.orderBy
  let shape ← query.shape
  let skip ← query.skip
  let top ← query.top
  let count ← query.count
  let _ ← query.format
  let keys :=
    if (query.raw.value? .orderBy).isSome then some (orderBy.map SortKey.ofOrderKey) else none
  let kept ← filtered filter records
  let matched ← arranged sort keys kept
  let shown ←
    (page (skip.getD 0) top matched).mapM (Projection.shaped query.model recordType shape)
  return {
    records := shown
    count := if count then some matched.length else none
    nextSkip := nextPlace (skip.getD 0) top matched.length }

end EntityQuery.ListProgram
