import EntityQuery.Catalog.Shapes
import EntityQuery.Value.DebugText

/-!
# Records of the sample catalog

How products, categories, customers, addresses, orders and employees become records.  A record shows
itself in messages with all its details, the ones of the records inside it included.
-/

namespace EntityQuery.Catalog

open Number Text

/-! ## Details of records -/

/-- A detail of a record: its label in messages and its text there. -/
structure Detail where
  label : String
  text : String

/-- A record in a message. -/
def describe (name : String) (details : List Detail) : String :=
  name ++ " \x7b " ++
    String.intercalate ", " (details.map fun detail => detail.label ++ ": " ++ detail.text) ++
    " \x7d"

/-- A detail that may be absent in a message. -/
def optionText : Option String → String
  | some text => "Some(" ++ text ++ ")"
  | none => "None"

/-- A list of details in a message. -/
def listText (texts : List String) : String := "[" ++ String.intercalate ", " texts ++ "]"

/-- A value that may be absent. -/
def optionValue {α : Type} (wrap : α → Value) : Option α → Value
  | some content => wrap content
  | none => .null

/-- A list of texts as a value. -/
def textsValue (texts : List String) : Value := .collection (texts.map .string)

/-! ## Records -/

/-- A category. -/
def category (identity id : Nat) (name : String) (description : Option String)
    (products : List Record) : Record :=
  .ofFields identity categoryKey
    (describe "Category"
      [⟨"id", toString id⟩, ⟨"name", quoted name⟩,
        ⟨"description", optionText (description.map quoted)⟩,
        ⟨"products", listText (products.map Record.debugText)⟩])
    [("Id", .int32 (Int32.ofNat id)), ("Name", .string name),
      ("Description", optionValue .string description),
      ("Products", .collection (products.map .record))]

/-- What a product has besides its number and its name. -/
structure ProductDetails where
  description : Option String
  price : Decimal
  category : Record
  colour : Int64
  released : Date
  rating : Option Float
  sku : Guid
  tags : List String

/-- A product. -/
def product (identity id : Nat) (name : String) (details : ProductDetails) : Record :=
  .ofFields identity productKey
    (describe "Product"
      [⟨"id", toString id⟩, ⟨"name", quoted name⟩,
        ⟨"description", optionText (details.description.map quoted)⟩,
        ⟨"price", details.price.text⟩,
        ⟨"category", optionText (some details.category.debugText)⟩,
        ⟨"colour", "Colour(" ++ intText details.colour.toInt ++ ")"⟩,
        ⟨"release_date", details.released.text⟩,
        ⟨"rating", optionText (details.rating.map fun x => binary64.messageText (doubleView x))⟩,
        ⟨"sku", details.sku.text⟩,
        ⟨"tags", listText (details.tags.map quoted)⟩])
    [("Id", .int32 (Int32.ofNat id)), ("Name", .string name),
      ("Description", optionValue .string details.description),
      ("Price", .decimal details.price), ("Category", .record details.category),
      ("Colour", .enumeration ⟨colourKey, details.colour⟩), ("ReleaseDate", .date details.released),
      ("Rating", optionValue .double details.rating), ("Sku", .guid details.sku),
      ("Tags", textsValue details.tags)]

/-- An address. -/
def address (identity : Nat) (street city : String) : Record :=
  .ofFields identity addressKey
    (describe "Address" [⟨"street", quoted street⟩, ⟨"city", quoted city⟩])
    [("Street", .string street), ("City", .string city)]

/-- A customer. -/
def customer (identity id : Nat) (name : String) (address : Record) (orders : List Record) :
    Record :=
  .ofFields identity customerKey
    (describe "Customer"
      [⟨"id", toString id⟩, ⟨"name", quoted name⟩, ⟨"address", address.debugText⟩,
        ⟨"orders", listText (orders.map Record.debugText)⟩])
    [("Id", .int32 (Int32.ofNat id)), ("Name", .string name), ("Address", .record address),
      ("Orders", .collection (orders.map .record))]

/-- An order. -/
def order (identity id : Nat) (placed : Instant) (total : Decimal) (customer : Record) : Record :=
  .ofFields identity orderKey
    (describe "Order"
      [⟨"id", toString id⟩, ⟨"placed", placed.exactText⟩, ⟨"total", total.text⟩,
        ⟨"customer", optionText (some customer.debugText)⟩])
    [("Id", .int32 (Int32.ofNat id)), ("Placed", .dateTimeOffset placed), ("Total", .decimal total),
      ("Customer", .record customer)]

/-- The levels of employees. -/
inductive Level
  | junior
  | senior
  | principal

/-- The name of a level. -/
def Level.name : Level → String
  | junior => "Junior"
  | senior => "Senior"
  | principal => "Principal"

/-- The number of a level. -/
def Level.number : Level → Int64
  | junior => 0
  | senior => 1
  | principal => 2

/-- The name of a person. -/
structure PersonName where
  forename : String
  surname : Option String

/-- What an employee has besides a number and a name. -/
structure EmployeeDetails where
  title : String
  level : Level
  start : TimeOfDay
  shift : Duration
  manager : Option Record

/-- An employee. -/
def employee (identity id : Nat) (name : PersonName) (details : EmployeeDetails) : Record :=
  let person := describe "Person"
    [⟨"id", toString id⟩, ⟨"forename", quoted name.forename⟩,
      ⟨"surname", optionText (name.surname.map quoted)⟩]
  .ofFields identity employeeKey
    (describe "Employee"
      [⟨"person", person⟩, ⟨"title", quoted details.title⟩, ⟨"level", details.level.name⟩,
        ⟨"start_time", details.start.text⟩, ⟨"shift", details.shift.debugText⟩,
        ⟨"manager", optionText (details.manager.map Record.debugText)⟩])
    [("Id", .int32 (Int32.ofNat id)), ("Forename", .string name.forename),
      ("Surname", optionValue .string name.surname), ("Title", .string details.title),
      ("Level", .enumeration ⟨levelKey, details.level.number⟩),
      ("StartTime", .timeOfDay details.start),
      ("Shift", .duration details.shift), ("Manager", optionValue .record details.manager)]

end EntityQuery.Catalog
