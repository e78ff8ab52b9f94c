import EntityQuery.Schema.Model
import EntityQuery.Schema.Resolver

/-!
# Building a model

A builder takes entity sets and types one by one and resolves each of them at once.  The model is
made in the end, when all entity sets are known: a property is navigable when the record type it is,
or is a collection of, is behind an entity set, and every record type takes over the properties of
the types it extends that it does not declare itself.
-/

namespace EntityQuery

/-- An entity set that has been registered; its key property is looked up in the end. -/
structure EntitySetDraft where
  name : String
  entityType : TypeKey
  key : Option String
  capabilities : Capabilities
  deriving DecidableEq, Inhabited

/-- The entity sets registered so far and the types collected for them. -/
structure ModelBuilder where
  resolver : Resolver
  sets : List EntitySetDraft
  deriving Inhabited

namespace ModelBuilder

/-- A builder without anything. -/
def empty : ModelBuilder := ⟨.empty, []⟩

/-- Resolves a type and keeps what was collected, whether or not that succeeds. -/
def registerType (builder : ModelBuilder) (graph : HostGraph) (type : HostType) :
    Except Resolver.Stop EdmType × ModelBuilder :=
  let (result, resolver) := (Resolver.resolve graph type).run.run builder.resolver
  (result, { builder with resolver })

/-- Registers an entity set.  Its name has to differ from all others by more than the case of ASCII
letters, and its type has to be a record type. -/
def register (builder : ModelBuilder) (graph : HostGraph) (name : String) (type : HostType)
    (key : Option String) (capabilities : Capabilities) :
    Except Resolver.Stop Unit × ModelBuilder :=
  if builder.sets.any fun set => Text.eqIgnoringAsciiCase set.name name then
    (.error (.failed (.configuration (.duplicateSet name))), builder)
  else
    match builder.registerType graph type with
    | (.ok (.complex entityType), builder) =>
      (.ok (), { builder with sets := builder.sets ++ [⟨name, entityType, key, capabilities⟩] })
    -- The type is refused, and yet what was collected for it stays.
    | (.ok other, builder) =>
      (.error (.failed (.configuration (.setNotRecord name other))), builder)
    | (.error stop, builder) => (.error stop, builder)

/-! ## Properties of the finished model -/

/-- Is there an entity set of records of a type? -/
def isEntityType (builder : ModelBuilder) (key : TypeKey) : Bool :=
  builder.sets.any fun set => set.entityType == key

/-- The property a draft becomes. -/
def finishProperty (builder : ModelBuilder) (declaringType : TypeKey) (draft : PropertyDraft) :
    Property :=
  ⟨draft.name, declaringType, draft.type, draft.nullable,
    draft.type.complexKey?.any builder.isEntityType⟩

/-- Adds the properties whose names are new, in order. -/
def addMissing (present : List Property) (more : List Property) : List Property :=
  more.foldl (fun acc property =>
    if acc.any fun other => other.name == property.name then acc else acc ++ [property]) present

/-- A record type and the types it extends, nearest first, through at most `depth` of them. -/
def lineage (builder : ModelBuilder) : Nat → TypeKey → List (TypeKey × RecordDraft)
  | 0, _ => []
  | depth + 1, key =>
    match builder.resolver.record? key with
    | none => []
    | some draft =>
      (key, draft) :: match draft.base with
        | none => []
        | some base => builder.lineage depth base

/-- Does a record type come back to itself along the types it extends?  It does if they are more
than there are record types. -/
def inheritsFromItself (builder : ModelBuilder) (key : TypeKey) : Bool :=
  let count := builder.resolver.records.length
  decide (count < (builder.lineage (count + 1) key).length)

/-- The properties of a record type, ordered by name.  A declaration hides those of the same name
further up. -/
def allProperties (builder : ModelBuilder) (key : TypeKey) : List Property :=
  let own := (builder.lineage builder.resolver.records.length key).map fun (declaring, draft) =>
    draft.properties.map (builder.finishProperty declaring)
  (own.foldl addMissing []).mergeSort fun a b => decide (a.name ≤ b.name)

/-- The record type a draft becomes. -/
def finishRecord (builder : ModelBuilder) (key : TypeKey) (draft : RecordDraft) : ComplexType :=
  ⟨key, draft.space, draft.name, draft.base, builder.allProperties key⟩

/-- The record types of the finished model. -/
def complexTypes (builder : ModelBuilder) : List ComplexType :=
  builder.resolver.records.map fun (key, draft) => builder.finishRecord key draft

/-! ## Entity sets of the finished model -/

/-- The entity set a draft becomes, whose key property has to exist. -/
def finishSet (types : List ComplexType) (draft : EntitySetDraft) : Except QueryError EntitySet :=
  match draft.key with
  | none => .ok ⟨draft.name, draft.entityType, none, draft.capabilities⟩
  | some name =>
    match (types.find? fun type => type.key == draft.entityType).bind (·.property? name) with
    | some property => .ok ⟨draft.name, draft.entityType, some property, draft.capabilities⟩
    | none => .error (.configuration (.missingKey name draft.name))

/-- Adds an entity set, in place of one that has the same name up to case. -/
def putSet (sets : List EntitySet) (set : EntitySet) : List EntitySet :=
  sets.filter (fun other => !Model.sameSetName other.name set.name) ++ [set]

/-- Puts the model together. -/
def assemble (builder : ModelBuilder) : Except QueryError Model := do
  let types := builder.complexTypes
  let sets ← builder.sets.mapM (finishSet types)
  return ⟨sets.foldl putSet [], types, builder.resolver.enums, builder.resolver.names⟩

/-- Makes the model, unless a record type inherits from itself. -/
def build (builder : ModelBuilder) : Except QueryError Model :=
  match builder.resolver.records.find? fun entry => builder.inheritsFromItself entry.1 with
  | some (_, draft) => .error (.configuration (.inheritsFromItself draft.name))
  | none => builder.assemble

end ModelBuilder

end EntityQuery
