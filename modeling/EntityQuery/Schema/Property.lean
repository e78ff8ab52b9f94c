import EntityQuery.Schema.EdmType

/-!
# Properties and paths

A property is a named field of a record type.  It is navigable when it leads to records of an entity
set.  A path is a chain of properties, written with slashes; it has at least one.
-/

namespace EntityQuery

/-- A property of a record type. -/
structure Property where
  name : String
  declaringType : TypeKey
  type : EdmType
  nullable : Bool
  navigable : Bool
  deriving DecidableEq, Inhabited

/-- A chain of properties. -/
structure PropertyPath where
  first : Property
  rest : List Property
  deriving DecidableEq, Inhabited

namespace PropertyPath

/-- The properties of a path, in order. -/
def segments (path : PropertyPath) : List Property := path.first :: path.rest

/-- The path with the given segments, of which there has to be one. -/
def ofSegments? : List Property → Option PropertyPath
  | [] => none
  | first :: rest => some ⟨first, rest⟩

/-- A path of one property. -/
def single (property : Property) : PropertyPath := ⟨property, []⟩

/-- The path behind the first property. -/
def next? (path : PropertyPath) : Option PropertyPath := ofSegments? path.rest

/-- The property a path leads to. -/
def terminal (path : PropertyPath) : Property := path.rest.getLast?.getD path.first

/-- The number of properties. -/
def size (path : PropertyPath) : Nat := path.segments.length

/-- The names of the properties. -/
def names (path : PropertyPath) : List String := path.segments.map Property.name

/-- The text of a path. -/
def text (path : PropertyPath) : String := String.intercalate "/" path.names

instance : ToString PropertyPath := ⟨text⟩

@[simp]
theorem ofSegments?_segments (path : PropertyPath) : ofSegments? path.segments = some path := rfl

theorem terminal_mem_segments (path : PropertyPath) : path.terminal ∈ path.segments := by
  unfold terminal segments
  cases h : path.rest.getLast? with
  | none => simp
  | some last => simp [List.mem_of_getLast? h]

end PropertyPath

end EntityQuery
