import EntityQuery.Schema.Builder

/-!
# Types of the sample catalog

Products belong to categories, customers place orders, and employees extend people.  Addresses are
not behind an entity set, so they are never navigable.
-/

namespace EntityQuery.Catalog

/-- The key of a type of the catalog. -/
def keyOf (name : String) : TypeKey := ⟨"vibeodata::demo::" ++ name⟩

def productKey : TypeKey := keyOf "Product"

def categoryKey : TypeKey := keyOf "Category"

def customerKey : TypeKey := keyOf "Customer"

def orderKey : TypeKey := keyOf "Order"

def employeeKey : TypeKey := keyOf "Employee"

def personKey : TypeKey := keyOf "Person"

def addressKey : TypeKey := keyOf "Address"

def colourKey : TypeKey := keyOf "Colour"

def levelKey : TypeKey := keyOf "Level"

/-- The namespace of the types of the catalog. -/
def space : String := "Sample.Model"

/-- A field that may be absent if its type allows it. -/
def field (name : String) (type : HostType) : FieldShape := ⟨name, type, false⟩

/-- A field that is never absent. -/
def required (name : String) (type : HostType) : FieldShape := ⟨name, type, true⟩

/-- A record type of the catalog. -/
def recordShape (name : String) (base : Option HostType) (fields : List FieldShape) : NamedShape :=
  .record ⟨space, name, base, fields⟩

/-- An enum type of the catalog. -/
def enumShape (name : String) (flags : Bool) (members : List (String × Int64)) : NamedShape :=
  .enumeration ⟨space, name, flags, members⟩

def categoryShape : NamedShape :=
  recordShape "Category" none
    [required "Id" (.primitive .int32),
      required "Name" (.primitive .string),
      field "Description" (.optional (.primitive .string)),
      field "Products" (.sequence (.named productKey))]

def productShape : NamedShape :=
  recordShape "Product" none
    [required "Id" (.primitive .int32),
      required "Name" (.primitive .string),
      field "Description" (.optional (.primitive .string)),
      field "Price" (.primitive .decimal),
      field "Category" (.named categoryKey),
      field "Colour" (.named colourKey),
      field "ReleaseDate" (.primitive .date),
      field "Rating" (.optional (.primitive .double)),
      field "Sku" (.primitive .guid),
      field "Tags" (.sequence (.primitive .string))]

def addressShape : NamedShape :=
  recordShape "Address" none
    [field "Street" (.primitive .string), field "City" (.primitive .string)]

def customerShape : NamedShape :=
  recordShape "Customer" none
    [required "Id" (.primitive .int32),
      required "Name" (.primitive .string),
      field "Address" (.named addressKey),
      field "Orders" (.sequence (.named orderKey))]

def orderShape : NamedShape :=
  recordShape "Order" none
    [required "Id" (.primitive .int32),
      field "Placed" (.primitive .dateTimeOffset),
      field "Total" (.primitive .decimal),
      field "Customer" (.named customerKey)]

def personShape : NamedShape :=
  recordShape "Person" none
    [required "Id" (.primitive .int32),
      required "Forename" (.primitive .string),
      field "Surname" (.optional (.primitive .string))]

def employeeShape : NamedShape :=
  recordShape "Employee" (some (.named personKey))
    [field "Title" (.primitive .string),
      field "Level" (.named levelKey),
      field "StartTime" (.primitive .timeOfDay),
      field "Shift" (.primitive .duration),
      field "Manager" (.optional (.named employeeKey))]

/-- A product may come in several colours. -/
def colourShape : NamedShape :=
  enumShape "Colour" true [("None", 0), ("Red", 1), ("Green", 2), ("Blue", 4), ("Black", 8)]

def levelShape : NamedShape :=
  enumShape "Level" false [("Junior", 0), ("Senior", 1), ("Principal", 2)]

/-- The types of the catalog. -/
def graph : HostGraph :=
  ⟨[(productKey, productShape), (categoryKey, categoryShape), (customerKey, customerShape),
    (orderKey, orderShape), (employeeKey, employeeShape), (personKey, personShape),
    (addressKey, addressShape), (colourKey, colourShape), (levelKey, levelShape)]⟩

/-- The entity sets of the catalog, with their types and what a client may do with them. -/
def entitySets : List (String × TypeKey × Capabilities) :=
  [("Products", productKey, .all),
    ("Categories", categoryKey, .none),
    ("Customers", customerKey, ⟨true, false, false⟩),
    ("Orders", orderKey, .none),
    ("Employees", employeeKey, ⟨false, true, false⟩)]

/-- Registers entity sets whose key is the property `Id`. -/
def registerAll (builder : ModelBuilder) :
    List (String × TypeKey × Capabilities) → Except Resolver.Stop ModelBuilder
  | [] => .ok builder
  | (name, key, capabilities) :: rest =>
    match builder.register graph name (.named key) (some "Id") capabilities with
    | (.ok (), builder) => registerAll builder rest
    | (.error e, _) => .error e

/-- The model of the catalog.  No type of the catalog wraps or extends itself, so that registering
them comes to an end. -/
def model : Except QueryError Model :=
  match registerAll .empty entitySets with
  | .ok builder => builder.build
  | .error (.failed e) => .error e
  | .error .endless => .error (.usage .noModel)

end EntityQuery.Catalog
