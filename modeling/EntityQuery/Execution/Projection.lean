import EntityQuery.Options.SelectExpand
import EntityQuery.Value.Json

/-!
# Projection

Projection reshapes a record into an ordered list of fields.  First come the selected properties
that are not navigable, then the expanded ones.  What is not expanded is followed no further than it
belongs to the record: a complex value becomes a record of its own fields, and an enum value becomes
its name.

The recursion is on the record, so it ends although the types may refer to each other in circles.
-/

namespace EntityQuery

open Text

mutual

/-- The value of a projected field: a plain value, a record or a list of records. -/
inductive ProjectedValue
  | value (content : Value)
  | record (content : ProjectedRecord)
  | records (items : List ProjectedRecord)

/-- A projected field. -/
inductive ProjectedField
  | mk (name : String) (content : ProjectedValue)

/-- A projected record: its fields in output order. -/
inductive ProjectedRecord
  | mk (fields : List ProjectedField)

end

instance : Inhabited ProjectedValue := ⟨.value .null⟩

instance : Inhabited ProjectedRecord := ⟨.mk []⟩

instance : Inhabited ProjectedField := ⟨.mk "" default⟩

namespace ProjectedField

/-- The name of a field. -/
def name : ProjectedField → String
  | mk name _ => name

/-- The value of a field. -/
def content : ProjectedField → ProjectedValue
  | mk _ content => content

end ProjectedField

namespace ProjectedRecord

/-- The fields of a record. -/
def fields : ProjectedRecord → List ProjectedField
  | mk fields => fields

/-- The names of the fields. -/
def names (record : ProjectedRecord) : List String := record.fields.map ProjectedField.name

/-- The number of fields. -/
def size (record : ProjectedRecord) : Nat := record.fields.length

def isEmpty (record : ProjectedRecord) : Bool := record.fields.isEmpty

end ProjectedRecord

/-! ## Projecting -/

namespace Projection

/-- The name of an enum value; one that has no name keeps its number. -/
def enumName (model : Model) (key : TypeKey) (value : Int64) : Value :=
  match (model.enumType? key).bind fun type => type.formatValue value with
  | some name => .string name
  | none => .int64 value

/-- An element of a collection of enum values. -/
def elementName (model : Model) (key : TypeKey) : Value → Value
  | .enumeration e => enumName model key e.value
  | other => other

/-- The properties that a selection takes from a type. -/
def selected (type : ComplexType) : Selection → List Property
  | .default | .all => type.properties.filter fun property => !property.navigable
  | .properties paths =>
    (paths.map PropertyPath.terminal).filter fun property => !property.navigable

/-- The type of the records behind an expanded property. -/
def expandedKey (property : Property) : Except QueryError TypeKey :=
  match property.type.complexKey? with
  | some key => .ok key
  | none => .error (.evaluation (.notExpandable property.name))

mutual

/-- The value of a property of a type that is not expanded. -/
def ownValue (model : Model) (type : EdmType) : Value → Except QueryError ProjectedValue
  | .enumeration e =>
    match type with
    | .enumeration key => .ok (.value (enumName model key e.value))
    | _ => .ok (.value (.enumeration e))
  | .record r =>
    match type with
    | .complex key => (record model key .default [] r).map .record
    | _ => .ok (.value (.record r))
  | .collection items =>
    match type with
    | .collection (.complex key) => (ownRecords model key items).map .records
    | .collection (.enumeration key) =>
      .ok (.value (.collection (items.map (elementName model key))))
    | _ => .ok (.value (.collection items))
  | other => .ok (.value other)

/-- The records among the elements of a collection that is not expanded. -/
def ownRecords (model : Model) (key : TypeKey) :
    List Value → Except QueryError (List ProjectedRecord)
  | [] => .ok []
  | .record r :: rest => do
    let first ← record model key .default [] r
    return first :: (← ownRecords model key rest)
  | _ :: rest => ownRecords model key rest

/-- The value of an expanded property. -/
def expandedValue (model : Model) (property : Property) (key : TypeKey)
    (children : List ExpandItem) : Value → Except QueryError ProjectedValue
  | .null => .ok (.value .null)
  | .record r => (record model key .default children r).map .record
  | .collection items => (expandedRecords model property key children items).map .records
  | other => .error (.evaluation (.notExpanded property.name other))

/-- The elements of an expanded collection, all of which have to be records unless they are null. -/
def expandedRecords (model : Model) (property : Property) (key : TypeKey)
    (children : List ExpandItem) : List Value → Except QueryError (List ProjectedRecord)
  | [] => .ok []
  | .null :: rest => expandedRecords model property key children rest
  | .record r :: rest => do
    let first ← record model key .default children r
    return first :: (← expandedRecords model property key children rest)
  | other :: _ => .error (.evaluation (.notRecord property.name other))

/-- A record read as one of a type. -/
def record (model : Model) (key : TypeKey) (selection : Selection) (expand : List ExpandItem) :
    Record → Except QueryError ProjectedRecord
  | .mk _ _ _ field => do
    let type ← model.complexType key
    let own ← (selected type selection).mapM fun property =>
      (ownValue model property.type (field property.name)).map (.mk property.name)
    let expanded ← expand.mapM fun item => do
      let element ← expandedKey item.property
      let content ←
        expandedValue model item.property element item.children (field item.property.name)
      return ProjectedField.mk item.property.name content
    return .mk (own ++ expanded)

end

/-- A record in the shape that a query asks for. -/
def shaped (model : Model) (key : TypeKey) (shape : Shape) (r : Record) :
    Except QueryError ProjectedRecord :=
  record model key shape.selection shape.items r

end Projection

/-! ## Output -/

mutual

/-- A projected value in output. -/
def ProjectedValue.toJson : ProjectedValue → Except UnprojectedRecord Json
  | .value content => content.toJson
  | .record content => content.toJson
  | .records items => do return .array (← ProjectedRecord.toJsonAll items)

/-- A projected record in output. -/
def ProjectedRecord.toJson : ProjectedRecord → Except UnprojectedRecord Json
  | .mk fields => do return .object (← ProjectedField.toJsonAll fields)

/-- Projected records in output. -/
def ProjectedRecord.toJsonAll : List ProjectedRecord → Except UnprojectedRecord (List Json)
  | [] => .ok []
  | record :: records => do
    let json ← record.toJson
    return json :: (← ProjectedRecord.toJsonAll records)

/-- A projected field in output. -/
def ProjectedField.toJson : ProjectedField → Except UnprojectedRecord (String × Json)
  | .mk name content => do return (name, ← content.toJson)

/-- Projected fields in output. -/
def ProjectedField.toJsonAll : List ProjectedField → Except UnprojectedRecord (List (String × Json))
  | [] => .ok []
  | field :: fields => do
    let json ← field.toJson
    return json :: (← ProjectedField.toJsonAll fields)

end

end EntityQuery
