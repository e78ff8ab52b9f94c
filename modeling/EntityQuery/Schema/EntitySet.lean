import EntityQuery.Schema.Property

/-!
# Entity sets

An entity set is a named collection of records of one type.  It may name a key property, and it says
what a client may do besides reading.
-/

namespace EntityQuery

/-- What a client may do with an entity set besides reading it. -/
structure Capabilities where
  insertable : Bool
  updatable : Bool
  deletable : Bool
  deriving DecidableEq, Inhabited

namespace Capabilities

def none : Capabilities := ⟨false, false, false⟩

def all : Capabilities := ⟨true, true, true⟩

/-- What either of two allows. -/
def union (a b : Capabilities) : Capabilities :=
  ⟨a.insertable || b.insertable, a.updatable || b.updatable, a.deletable || b.deletable⟩

/-- Does `a` allow all that `b` does? -/
def contains (a b : Capabilities) : Bool :=
  (a.insertable || !b.insertable) && (a.updatable || !b.updatable) && (a.deletable || !b.deletable)

def isEmpty (a : Capabilities) : Bool := a == none

end Capabilities

/-- A named collection of records of one type. -/
structure EntitySet where
  name : String
  entityType : TypeKey
  key : Option Property
  capabilities : Capabilities
  deriving DecidableEq, Inhabited

end EntityQuery
