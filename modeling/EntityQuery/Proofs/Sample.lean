import EntityQuery.Execution.Page
import EntityQuery.Schema.Builder

/-!
# Small models

Items with a name, a price and parts, and a tree of nodes.  They give the general theorems something
to be applied to.
-/

namespace EntityQuery.Sample

def itemKey : TypeKey := ⟨"Item"⟩

def partKey : TypeKey := ⟨"Part"⟩

/-- A property of a type that may be null. -/
def property (key : TypeKey) (name : String) (type : EdmType) : Property :=
  ⟨name, key, type, true, type.complexKey?.isSome⟩

def partType : ComplexType :=
  ⟨partKey, "Sample", "Part", none, [property partKey "Count" (.primitive .int32)]⟩

def itemType : ComplexType :=
  ⟨itemKey, "Sample", "Item", none,
    [property itemKey "Name" (.primitive .string),
      property itemKey "Parts" (.collection (.complex partKey)),
      property itemKey "Price" (.primitive .int64)]⟩

def items : EntitySet := ⟨"Items", itemKey, none, .none⟩

def model : Model := ⟨[items], [itemType, partType], [], []⟩

/-- A path of one property. -/
def step (key : TypeKey) (name : String) (type : EdmType) : PropertyPath :=
  .single (property key name type)

/-- `Price add 1 gt 10 and not Parts/any(p: p/Count eq null)` -/
def filter : Expression :=
  .binary .and
    (.binary .gt
      (.binary .add (.path (step itemKey "Price" (.primitive .int64)) none)
        (.literal (.ofKind .int32 "1" (.int32 1))))
      (.literal (.ofKind .int32 "10" (.int32 10))))
    (.unary .not
      (.lambda .any (.path (step itemKey "Parts" (.collection (.complex partKey))) none) "p"
        (some (.binary .eq (.path (step partKey "Count" (.primitive .int32)) (some "p"))
          (.literal .null)))))

/-- A part. -/
def part (identity : Nat) (count : Int32) : Record :=
  .ofFields identity partKey "part" [("Count", .int32 count)]

/-- An item, with its parts. -/
def item (identity : Nat) (name : String) (price : Int64) (parts : List Record) : Record :=
  .ofFields identity itemKey "item"
    [("Name", .string name), ("Price", .int64 price), ("Parts", .collection (parts.map .record))]

/-- A bolt is dear and has parts, a nut is neither, and a hinge has parts but is cheap. -/
def bolt : Record := item 1 "Bolt" 12 [part 2 4]

def nut : Record := item 3 "Nut" 3 []

def hinge : Record := item 4 "Hinge" 3 [part 5 2]

/-! ## Trees -/

def nodeKey : TypeKey := ⟨"Node"⟩

/-- A node has a number and further nodes. -/
def treeGraph : HostGraph :=
  ⟨[(nodeKey, .record ⟨"Sample", "Node", none,
    [⟨"Id", .primitive .int32, true⟩, ⟨"Kids", .sequence (.named nodeKey), false⟩]⟩)]⟩

def nodeDrafts : List PropertyDraft :=
  [⟨"Id", .primitive .int32, false⟩, ⟨"Kids", .collection (.complex nodeKey), true⟩]

def treeBuilder : ModelBuilder :=
  ⟨⟨[(nodeKey, ⟨"Sample", "Node", none, nodeDrafts⟩)], [], [("Sample.Node", nodeKey)]⟩,
    [⟨"Nodes", nodeKey, some "Id", .none⟩]⟩

def idProperty : Property := ⟨"Id", nodeKey, .primitive .int32, false, false⟩

def kidsProperty : Property := ⟨"Kids", nodeKey, .collection (.complex nodeKey), true, true⟩

def nodeType : ComplexType := ⟨nodeKey, "Sample", "Node", none, [idProperty, kidsProperty]⟩

def treeModel : Model :=
  ⟨[⟨"Nodes", nodeKey, some idProperty, .none⟩], [nodeType], [], [("Sample.Node", nodeKey)]⟩

theorem register_tree :
    ModelBuilder.empty.register treeGraph "Nodes" (.named nodeKey) (some "Id") .none
      = (.ok (), treeBuilder) := by
  have hsorted : nodeDrafts.mergeSort (fun a b => decide (a.name ≤ b.name)) = nodeDrafts :=
    List.mergeSort_of_pairwise (by decide)
  rw [treeBuilder, ← hsorted]
  rfl

theorem build_tree : treeBuilder.build = .ok treeModel := by
  have hsorted : [idProperty, kidsProperty].mergeSort (fun a b => decide (a.name ≤ b.name))
      = [idProperty, kidsProperty] := List.mergeSort_of_pairwise (by decide)
  have hall : treeBuilder.allProperties nodeKey = [idProperty, kidsProperty] := by
    rw [← hsorted]
    rfl
  have htypes : treeBuilder.complexTypes = [nodeType] := by
    rw [nodeType, ← hall]
    rfl
  have hassemble : treeBuilder.assemble = .ok treeModel := by
    rw [ModelBuilder.assemble, htypes]
    rfl
  rw [← hassemble]
  rfl

/-- A node without further nodes. -/
def leaf : Record := .ofFields 0 nodeKey "leaf" [("Id", .int32 1), ("Kids", .collection [])]

/-! ## A type that cannot be resolved -/

def brokenKey : TypeKey := ⟨"Broken"⟩

/-- A record with a field that has no counterpart in the model. -/
def brokenGraph : HostGraph :=
  ⟨[(brokenKey, .record ⟨"Sample", "Broken", none,
    [⟨"Id", .primitive .int32, true⟩,
      ⟨"Lookup", .generic "HashMap" 2 "HashMap<i32, i32>", false⟩]⟩)]⟩

/-- Registers the record as an entity set. -/
def registerBroken (builder : ModelBuilder) : Except Resolver.Stop Unit × ModelBuilder :=
  builder.register brokenGraph "Broken" (.named brokenKey) none .none

/-! ## A type that its own base leads to -/

def animalKey : TypeKey := ⟨"Animal"⟩

def dogKey : TypeKey := ⟨"Dog"⟩

/-- A dog is an animal, and the rival of an animal is a dog. -/
def pedigreeGraph : HostGraph :=
  ⟨[(animalKey, .record ⟨"Sample", "Animal", none,
      [⟨"Rival", .optional (.named dogKey), false⟩]⟩),
    (dogKey, .record ⟨"Sample", "Dog", some (.named animalKey),
      [⟨"Age", .primitive .int32, true⟩]⟩)]⟩

end EntityQuery.Sample
