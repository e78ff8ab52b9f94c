import EntityQuery.Execution.Pipeline
import EntityQuery.Options.Query

/-!
# Answering a query

Every option is read before any record is looked at.  The records that pass the filter are sorted, a
page is cut out of them, and the records of the page are projected.

The page knows how many records matched, if that was asked for, and where the next page begins, if
`$top` ended this one before the last record.
-/

namespace EntityQuery

/-- The answer to a query. -/
structure Page where
  records : List ProjectedRecord
  count : Option Nat
  nextSkip : Option Nat
  deriving Inhabited

/-- The options of a query, read. -/
structure Plan where
  filter : Option Expression
  orderBy : List OrderKey
  shape : Shape
  skip : Nat
  top : Option Nat
  count : Bool
  deriving Inhabited

namespace Plan

/-- Reads the options of a query.  The media type is read as well, although it changes nothing. -/
def ofQuery (query : Query) : Except QueryError Plan := do
  let filter ← query.filter
  let orderBy ← query.orderBy
  let shape ← query.shape
  let skip ← query.skip
  let top ← query.top
  let count ← query.count
  let _ ← query.format
  return ⟨filter, orderBy, shape, skip.getD 0, top, count⟩

/-- The stages that decide which records match, and their order. -/
def matchStages (plan : Plan) : List Stage :=
  (match plan.filter with
    | some predicate => [.filter predicate]
    | none => []) ++
  (if plan.orderBy.isEmpty then [] else [.sort (plan.orderBy.map SortKey.ofOrderKey)])

/-- The matching records in their order. -/
def matching (plan : Plan) (records : List Record) : Except QueryError (List Record) :=
  (Pipeline.build records plan.matchStages).collect

/-- Where the next page begins, if there is one after this. -/
def nextSkip (plan : Plan) (total : Nat) : Option Nat :=
  (plan.top.map fun top => min (plan.skip + top) maxCount).filter (· < total)

/-- The page of the matching records. -/
def page (plan : Plan) (model : Model) (key : TypeKey) (matched : List Record) :
    Except QueryError (List ProjectedRecord) :=
  (ProjectedPipeline.build model key plan.shape
    (Pipeline.build matched [.limit plan.skip plan.top])).collect

end Plan

namespace Query

/-- Answers a query over records of a type, which has to be the one the query is about. -/
def execute (query : Query) (recordType : TypeKey) (records : List Record) :
    Except QueryError Page := do
  if query.type != recordType then
    throw (.usage (.wrongRecords recordType query.set.name query.type))
  let plan ← Plan.ofQuery query
  let matched ← plan.matching records
  let page ← plan.page query.model recordType matched
  return ⟨page, if plan.count then some matched.length else none, plan.nextSkip matched.length⟩

/-- The records of the answer alone. -/
def apply (query : Query) (recordType : TypeKey) (records : List Record) :
    Except QueryError (List ProjectedRecord) :=
  (query.execute recordType records).map Page.records

end Query

end EntityQuery
