import EntityQuery.Schema.Kind

/-!
# Host types

The types of the program whose records are queried.  A declaration is a primitive, a type known by
its key, or one of these wrapped as optional or as a sequence; any other generic type has no
counterpart in the model.  A `HostGraph` holds the shape of every named type, which is asked for
when it is needed.  So a type may refer to itself: a record through its fields or its base, and also
a type that is itself optional or a sequence, through what it wraps.
-/

namespace EntityQuery

/-- The identity of a named type: its path in the host program. -/
structure TypeKey where
  path : String
  deriving DecidableEq, Inhabited

/-- The text of a key inside a message. -/
def TypeKey.debugText (key : TypeKey) : String := "TypeKey(" ++ key.path ++ ")"

/-- A type as it is declared.  A generic type that is neither optional nor a sequence is known by
its name, the number of its arguments and its full path. -/
inductive HostType
  | primitive (kind : PrimitiveKind)
  | named (key : TypeKey)
  | optional (inner : HostType)
  | sequence (element : HostType)
  | generic (name : String) (arguments : Nat) (path : String)
  deriving DecidableEq, Inhabited

/-- A declared field.  A required field is never absent, also where its type would allow it. -/
structure FieldShape where
  name : String
  type : HostType
  required : Bool
  deriving DecidableEq, Inhabited

/-- A record type: its name, the type it extends and the fields it adds. -/
structure RecordShape where
  space : String
  name : String
  base : Option HostType
  fields : List FieldShape
  deriving DecidableEq, Inhabited

/-- An enum type: its name, whether its members combine, and the members with their values. -/
structure EnumShape where
  space : String
  name : String
  flags : Bool
  members : List (String × Int64)
  deriving DecidableEq, Inhabited

/-- What a named type looks like that is neither a record nor an enum type.  It has no name in the
model. -/
inductive PlainShape
  | primitive (kind : PrimitiveKind)
  | optional (inner : HostType)
  | sequence (element : HostType)
  | generic (name : String) (arguments : Nat)
  deriving DecidableEq, Inhabited

/-- The declaration that says what such a type looks like. -/
def PlainShape.type (key : TypeKey) : PlainShape → HostType
  | primitive kind => .primitive kind
  | optional inner => .optional inner
  | sequence element => .sequence element
  | generic name arguments => .generic name arguments key.path

/-- What a key stands for. -/
inductive NamedShape
  | record (shape : RecordShape)
  | enumeration (shape : EnumShape)
  | plain (shape : PlainShape)
  deriving DecidableEq, Inhabited

/-- The shapes of the named types. -/
structure HostGraph where
  entries : List (TypeKey × NamedShape)
  deriving Inhabited

namespace HostGraph

/-- The shape of a type; one that is not described is a record without fields, named by its path. -/
def shape (graph : HostGraph) (key : TypeKey) : NamedShape :=
  (graph.entries.lookup key).getD (.record ⟨"", key.path, none, []⟩)

/-- The number of described types. -/
def size (graph : HostGraph) : Nat := graph.entries.length

/-- Does a type say itself that a value may be absent? -/
def isOptional (graph : HostGraph) : HostType → Bool
  | .optional _ => true
  | .named key =>
    match graph.shape key with
    | .plain (.optional _) => true
    | _ => false
  | _ => false

end HostGraph

end EntityQuery
