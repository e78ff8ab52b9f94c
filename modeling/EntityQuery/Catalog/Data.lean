import EntityQuery.Catalog.Records
import EntityQuery.Execution.Page

/-!
# Data of the sample catalog

Five products in two categories, two customers with three orders, and three employees.

Records do not refer to each other in circles: the category of a product is a copy without its list
of products, and the customer of an order is one without orders.  Where two records refer to the
same record, they do so by its identity.
-/

namespace EntityQuery.Catalog

/-! ## Values -/

/-- A price in hundredths. -/
def hundredths (n : Nat) : Decimal := (Decimal.ofParts? false n 2).getD .zero

/-- A day of the calendar. -/
def day (year : Int) (month day : Nat) : Date := (Date.ofParts? year month day).getD .epoch

/-- An hour of a day, in universal time. -/
def hourOf (date : Date) (hour : Nat) : Instant :=
  ⟨date.dayNumber * 86400 + hour * 3600, 0, 0, by decide, by decide⟩

/-- A time of day in minutes since midnight. -/
def minutesPast (n : Nat) : TimeOfDay :=
  (TimeOfDay.ofParts? (n * 60) 0).getD ⟨0, 0, by decide, by decide⟩

/-- A span of time in minutes. -/
def minutes (n : Nat) : Duration := (Duration.ofNanos? (n * 60000000000)).getD .zero

/-- An identifier. -/
def guid (n : Nat) : Guid := (Guid.ofNat? n).getD default

/-! ## Products and categories -/

/-- The category of phones, with the products in it. -/
def phones (identity : Nat) (products : List Record) : Record :=
  category identity 1 "Phones" (some "Mobile phones") products

/-- The category of tablets, with the products in it. -/
def tablets (identity : Nat) (products : List Record) : Record :=
  category identity 2 "Tablets" none products

/-- The products that are phones; all of them have the same category. -/
def phoneProducts : List Record :=
  let phones := phones 101 []
  [product 1 1 "iPhone"
      ⟨some "Flagship phone", hundredths 49900, phones, 12, day 2023 9 22, some 4.5,
        guid 0x0f8fad5bd9cb469fa16570867728950e, ["5G", "OLED"]⟩,
    product 2 2 "iPhone"
      ⟨some "Previous generation", hundredths 39900, phones, 1, day 2022 9 16, some 4.1,
        guid 0x7c9e6679742540de944be07fc1f90ae7, ["5G"]⟩,
    product 3 3 "Galaxy"
      ⟨none, hundredths 54900, phones, 10, day 2024 1 31, some 4.3,
        guid 0x1b4e28ba2fa111d2883f0016d3cca427, ["5G", "AMOLED"]⟩,
    product 4 4 "Pixel"
      ⟨some "Camera phone", hundredths 46900, phones, 4, day 2023 10 12, none,
        guid 0x6fa459eaee8a3ca4894edb77e160355e, []⟩]

/-- The products that are tablets. -/
def tabletProducts : List Record :=
  [product 5 5 "iPad"
      ⟨some "Tablet", hundredths 32900, tablets 102 [], 0, day 2021 9 24, some 3.9,
        guid 0x886313e13b8a53729b900c9aee199e5d, ["WiFi"]⟩]

def products : List Record := phoneProducts ++ tabletProducts

def categories : List Record := [phones 111 phoneProducts, tablets 112 tabletProducts]

/-! ## Customers and orders -/

/-- The customer Ada, with an address of her own and the orders she placed. -/
def ada (identity addressIdentity : Nat) (orders : List Record) : Record :=
  customer identity 1 "Ada" (address addressIdentity "12 Analytical Way" "London") orders

/-- The customer Grace, with an address of her own and the orders she placed. -/
def grace (identity addressIdentity : Nat) (orders : List Record) : Record :=
  customer identity 2 "Grace" (address addressIdentity "1 Compiler Court" "Arlington") orders

/-- The orders of Ada. -/
def adaOrders : List Record :=
  let ada := ada 201 221 []
  [order 301 10 (hourOf (day 2024 3 1) 9) (hundredths 49900) ada,
    order 302 11 (hourOf (day 2024 3 2) 14) (hundredths 3250) ada]

/-- The order of Grace. -/
def graceOrders : List Record :=
  [order 303 12 (hourOf (day 2024 4 18) 11) (hundredths 87800) (grace 202 222 [])]

def orders : List Record := adaOrders ++ graceOrders

def customers : List Record := [ada 211 231 adaOrders, grace 212 232 graceOrders]

/-! ## Employees -/

/-- The manager of the other employees. -/
def director (identity : Nat) : Record :=
  employee identity 1 ⟨"Margaret", some "Hamilton"⟩
    ⟨"Director", .principal, minutesPast 480, minutes 480, none⟩

def employees : List Record :=
  let lead := director 401
  [director 411,
    employee 412 2 ⟨"Linus", none⟩
      ⟨"Engineer", .senior, minutesPast 570, minutes 450, some lead⟩,
    employee 413 3 ⟨"Barbara", some "Liskov"⟩
      ⟨"Engineer", .junior, minutesPast 600, minutes 360, some lead⟩]

/-! ## Queries -/

/-- The records of an entity set and their type. -/
def records? : String → Option (TypeKey × List Record)
  | "Products" => some (productKey, products)
  | "Categories" => some (categoryKey, categories)
  | "Customers" => some (customerKey, customers)
  | "Orders" => some (orderKey, orders)
  | "Employees" => some (employeeKey, employees)
  | _ => none

/-- Answers a query over the catalog. -/
def execute (query : Query) : Except QueryError Page :=
  match records? query.set.name with
  | some (key, records) => query.execute key records
  | none => .error (.usage (.noSampleData query.set.name))

end EntityQuery.Catalog
