import EntityQuery.Error.Cause
import EntityQuery.Schema.ComplexType

/-!
# Resolving host types

Registering a type draws in every type that can be reached from it.  The resolver collects them as
drafts: record types with their own properties, enum types, and the full names that are taken.  A
record or enum type that is already there is not looked at again, so references may go in circles; a
record enters the drafts without properties before its fields are looked at.

The type that a record extends is resolved before the record itself enters the drafts.  A field of
the base may lead back to the record, which is then completed on the way and once more afterwards,
with the same outcome.

A type that is optional or a sequence is entered only through what it wraps.  If it wraps itself, or
if a record extends a sequence of itself, nothing is entered on the way round, and resolution goes
round for ever (`Stop.endless`).

What has been collected stays, also when a field turns out to have no counterpart in the model.
-/

namespace EntityQuery

/-- A property before it is known which types are behind entity sets. -/
structure PropertyDraft where
  name : String
  type : EdmType
  nullable : Bool
  deriving DecidableEq, Inhabited

/-- A record type with the properties it declares itself, ordered by name. -/
structure RecordDraft where
  space : String
  name : String
  base : Option TypeKey
  properties : List PropertyDraft
  deriving DecidableEq, Inhabited

/-- The types collected so far and the names they have taken. -/
structure Resolver where
  records : List (TypeKey × RecordDraft)
  enums : List EnumType
  names : List (String × TypeKey)
  deriving Inhabited

namespace Resolver

/-- Nothing collected. -/
def empty : Resolver := ⟨[], [], []⟩

/-- The draft of a record type. -/
def record? (r : Resolver) (key : TypeKey) : Option RecordDraft := r.records.lookup key

/-- The model type of a named type that has been collected. -/
def known? (r : Resolver) (key : TypeKey) : Option EdmType :=
  if (r.record? key).isSome then some (.complex key)
  else if r.enums.any fun type => type.key == key then some (.enumeration key)
  else none

/-- Enters a record type, in place of what was entered for it before. -/
def putRecord (r : Resolver) (key : TypeKey) (draft : RecordDraft) : Resolver :=
  { r with records := (key, draft) :: r.records.filter fun entry => entry.1 != key }

/-- Enters an enum type. -/
def putEnum (r : Resolver) (type : EnumType) : Resolver :=
  { r with enums := r.enums ++ [type] }

/-- Takes a full name for a type, unless another type has it. -/
def claim (r : Resolver) (fullName : String) (key : TypeKey) : Except QueryError Resolver :=
  match r.names.lookup fullName with
  | some owner =>
    if owner == key then .ok r
    else .error (.configuration (.nameClash fullName owner key))
  | none => .ok { r with names := r.names ++ [(fullName, key)] }

/-- Why resolution has no result: it fails, or it does not come to an end. -/
inductive Stop
  | failed (cause : QueryError)
  | endless

end Resolver

/-- A step of resolution: it may stop, and keeps what was collected even then. -/
abbrev ResolverM := ExceptT Resolver.Stop (StateM Resolver)

/-- A value of this type may be absent: the field says so, a collection always may, and a text, a
string of bytes or a record may unless the field is required. -/
def FieldShape.allowsNull (graph : HostGraph) (field : FieldShape) (type : EdmType) : Bool :=
  graph.isOptional field.type || type.isCollection || (!field.required && match type with
    | .primitive kind => kind.isReference
    | .complex _ => true
    | .enumeration _ => false
    | .collection _ => true)

/-- The enum type that a shape describes. -/
def EnumShape.toEnumType (shape : EnumShape) (key : TypeKey) : EnumType :=
  ⟨key, shape.space, shape.name, shape.flags, shape.members.map fun member => ⟨member.1, member.2⟩⟩

namespace Resolver

/-- Takes a full name for a type. -/
def claimName (fullName : String) (key : TypeKey) : ResolverM Unit := do
  match (← get).claim fullName key with
  | .ok r => set r
  | .error e => throw (.failed e)

/-- The model type of a declaration, given what to do with the named types in it. -/
def typeOf (named : TypeKey → ResolverM EdmType) : HostType → ResolverM EdmType
  | .primitive kind => return .primitive kind
  | .named key => named key
  | .optional inner => typeOf named inner
  | .sequence element => return .collection (← typeOf named element)
  | .generic name arguments path =>
    throw (.failed (.configuration (.unsupportedGeneric name arguments path)))

/-- The draft of a field. -/
def fieldDraft (graph : HostGraph) (named : TypeKey → ResolverM EdmType) (field : FieldShape) :
    ResolverM PropertyDraft := do
  let type ← typeOf named field.type
  return ⟨field.name, type, field.allowsNull graph type⟩

/-- The key of the record type that a record extends. -/
def baseKey (named : TypeKey → ResolverM EdmType) (shape : RecordShape) :
    ResolverM (Option TypeKey) := do
  match shape.base with
  | none => return none
  | some base =>
    match ← typeOf named base with
    | .complex key => return some key
    | other => throw (.failed (.configuration (.baseNotRecord shape.name other)))

/-- Resolves a record type that has not been collected. -/
def resolveRecord (graph : HostGraph) (named : TypeKey → ResolverM EdmType) (key : TypeKey)
    (shape : RecordShape) : ResolverM EdmType := do
  let base ← baseKey named shape
  claimName (shape.space ++ "." ++ shape.name) key
  -- From here on a field that leads back to the record finds it.
  modify fun r => r.putRecord key ⟨shape.space, shape.name, base, []⟩
  let properties ← shape.fields.mapM (fieldDraft graph named)
  let sorted := properties.mergeSort fun a b => decide (a.name ≤ b.name)
  modify fun r => r.putRecord key ⟨shape.space, shape.name, base, sorted⟩
  return .complex key

/-- Resolves an enum type that has not been collected. -/
def resolveEnum (key : TypeKey) (shape : EnumShape) : ResolverM EdmType := do
  claimName (shape.space ++ "." ++ shape.name) key
  modify fun r => r.putEnum (shape.toEnumType key)
  return .enumeration key

/-- The model type of a named type that has been collected, or what comes of resolving it. -/
def reuse (key : TypeKey) (resolve : ResolverM EdmType) : ResolverM EdmType := do
  match (← get).known? key with
  | some type => return type
  | none => resolve

/-- Resolves a named type through at most `depth` types that are not collected yet.  One that is
neither a record nor an enum type leaves nothing behind that it could be found by. -/
def resolveNamed (graph : HostGraph) : Nat → TypeKey → ResolverM EdmType
  | 0, _ => throw .endless
  | depth + 1, key =>
    match graph.shape key with
    | .plain shape => typeOf (resolveNamed graph depth) (shape.type key)
    | .enumeration shape => reuse key (resolveEnum key shape)
    | .record shape => reuse key (resolveRecord graph (resolveNamed graph depth) key shape)

/-- The longest way through a graph that comes to an end: at most all its types are entered one
after another, each behind a chain of types that it extends or wraps, and the last one may be a type
that is not described.  A way that is longer comes past one type twice with nothing entered in
between, and has no end. -/
def maxDepth (graph : HostGraph) : Nat := (graph.size + 1) * (graph.size + 1) + 1

/-- The model type of a declaration.  Every named type that can be reached is collected. -/
def resolve (graph : HostGraph) (type : HostType) : ResolverM EdmType :=
  typeOf (resolveNamed graph (maxDepth graph)) type

end Resolver

end EntityQuery
