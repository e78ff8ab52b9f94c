import EntityQuery.Error.Cause
import EntityQuery.Schema.ComplexType
import EntityQuery.Schema.EntitySet
import EntityQuery.Text.Casing

/-!
# Models

A model holds the entity sets and the types behind them, and resolves the names of a query.  Entity
sets are found without regard to case; types and properties are not.  A path is resolved from the
left: every property but the last has to lead to records of an entity set.
-/

namespace EntityQuery

/-- The entity sets, the types behind them, and what each full type name stands for. -/
structure Model where
  sets : List EntitySet
  complexTypes : List ComplexType
  enumTypes : List EnumType
  names : List (String × TypeKey)
  deriving Inhabited

namespace Model

/-! ## Entity sets -/

/-- Two names of entity sets are the same up to case. -/
def sameSetName (s t : String) : Bool := Text.toLower s == Text.toLower t

/-- The entity set with a given name. -/
def entitySet (model : Model) (name : String) : Except QueryError EntitySet :=
  match model.sets.find? fun set => sameSetName set.name name with
  | some set => .ok set
  | none => .error (.resolution (.unknownSet name))

/-- All entity sets, ordered by name. -/
def entitySets (model : Model) : List EntitySet :=
  model.sets.mergeSort fun a b => decide (a.name ≤ b.name)

/-- An entity set of records of a given type. -/
def entitySetFor? (model : Model) (key : TypeKey) : Option EntitySet :=
  model.sets.find? fun set => set.entityType == key

/-! ## Types -/

/-- The record type with a given key. -/
def complexType? (model : Model) (key : TypeKey) : Option ComplexType :=
  model.complexTypes.find? fun type => type.key == key

/-- The record type with a given key, which has to be there. -/
def complexType (model : Model) (key : TypeKey) : Except QueryError ComplexType :=
  match model.complexType? key with
  | some type => .ok type
  | none => .error (.resolution (.unknownType key))

/-- The enum type with a given key. -/
def enumType? (model : Model) (key : TypeKey) : Option EnumType :=
  model.enumTypes.find? fun type => type.key == key

/-- The record type with a given full name. -/
def complexTypeNamed? (model : Model) (fullName : String) : Option ComplexType :=
  (model.names.lookup fullName).bind model.complexType?

/-- The enum type with a given full name. -/
def enumTypeNamed? (model : Model) (fullName : String) : Option EnumType :=
  (model.names.lookup fullName).bind model.enumType?

/-- The name of a type in messages and answers. -/
def typeName (model : Model) : EdmType → String
  | .primitive kind => kind.fullName
  | .complex key => ((model.complexType? key).map ComplexType.fullName).getD key.path
  | .enumeration key => ((model.enumType? key).map EnumType.fullName).getD key.path
  | .collection element => "Collection(" ++ model.typeName element ++ ")"

/-! ## Properties and paths -/

/-- The property of a type with a given name. -/
def property (model : Model) (key : TypeKey) (name : String) : Except QueryError Property := do
  let type ← model.complexType key
  match type.property? name with
  | some property => .ok property
  | none => .error (.resolution (.unknownProperty type.fullName name))

/-- The path of a single property. -/
def resolveProperty (model : Model) (key : TypeKey) (name : String) :
    Except QueryError PropertyPath :=
  (model.property key name).map PropertyPath.single

/-- The record type a navigable property leads to. -/
def target (path : String) (property : Property) : Except QueryError TypeKey :=
  match property.navigable, property.type.complexKey? with
  | true, some key => .ok key
  | _, _ => .error (.resolution (.notNavigable property.name path))

/-- The properties that the segments of a path name, beginning at a type. -/
def resolveSegments (model : Model) (path : String) (key : TypeKey) :
    List String → Except QueryError (List Property)
  | [] => .ok []
  | name :: rest => do
    if name.isEmpty then throw (.malformed (.emptySegment path))
    let property ← model.property key name
    match rest with
    | [] => return [property]
    | _ :: _ =>
      let next ← target path property
      return property :: (← model.resolveSegments path next rest)

/-- The segments of a path. -/
def splitPath (path : String) : List String :=
  (path.toList.splitOn '/').map String.ofList

/-- The chain of properties that a path names, beginning at a type. -/
def resolvePath (model : Model) (key : TypeKey) (path : String) : Except QueryError PropertyPath :=
  match splitPath path with
  | [] | [_] => model.resolveProperty key path
  | segments => do
    match PropertyPath.ofSegments? (← model.resolveSegments path key segments) with
    | some resolved => return resolved
    | none => throw (.malformed (.emptySegment path))

end Model

/-- The place where the current model is published.  Publishing replaces the model as a whole, so
whoever has read it before keeps what was read. -/
structure ModelHandle where
  model? : Option Model
  deriving Inhabited

namespace ModelHandle

/-- A handle without a model. -/
def empty : ModelHandle := ⟨none⟩

/-- Replaces the current model. -/
def publish (_ : ModelHandle) (model : Model) : ModelHandle := ⟨some model⟩

/-- The current model. -/
def current (handle : ModelHandle) : Except QueryError Model :=
  match handle.model? with
  | some model => .ok model
  | none => .error (.usage .noModel)

theorem current_publish (handle : ModelHandle) (model : Model) :
    (handle.publish model).current = .ok model := rfl

end ModelHandle

end EntityQuery
