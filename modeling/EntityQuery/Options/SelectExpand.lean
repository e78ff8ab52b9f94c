import EntityQuery.Options.Raw
import EntityQuery.Schema.Model

/-!
# Shape of the result

`$select` lists the properties that a projected record carries, and `$expand` the navigable
properties that are followed.  Both know the star for all there are.  The expanded paths are merged
into a tree, in which paths share the way they have in common and everything stands in the order of
its first mention.
-/

namespace EntityQuery

/-- The fields that a projected record carries. -/
inductive Selection
  | default
  | all
  | properties (paths : List PropertyPath)
  deriving DecidableEq, Inhabited

/-- A navigable property to follow, and what to follow behind it. -/
inductive ExpandItem
  | mk (property : Property) (children : List ExpandItem)
  deriving Inhabited

namespace ExpandItem

/-- The property to follow. -/
def property : ExpandItem → Property
  | mk property _ => property

/-- What to follow behind it. -/
def children : ExpandItem → List ExpandItem
  | mk _ children => children

/-- Changes the first item of a property by a function on its children, or adds an item at the end.
-/
def update (property : Property) (change : List ExpandItem → List ExpandItem) :
    List ExpandItem → List ExpandItem
  | [] => [mk property (change [])]
  | item :: items =>
    if item.property.name == property.name then mk item.property (change item.children) :: items
    else item :: update property change items

/-- Adds a path. -/
def insert : List Property → List ExpandItem → List ExpandItem
  | [], items => items
  | property :: rest, items => update property (insert rest) items

/-- The tree of some paths. -/
def tree (paths : List PropertyPath) : List ExpandItem :=
  paths.foldl (fun items path => insert path.segments items) []

end ExpandItem

/-- The shape of the result: the selected fields, the expanded paths and their tree. -/
structure Shape where
  selection : Selection
  expand : List PropertyPath
  deriving DecidableEq, Inhabited

namespace Shape

/-- The tree of the expanded paths. -/
def items (shape : Shape) : List ExpandItem := ExpandItem.tree shape.expand

/-- Is this the shape of a query without `$select` and `$expand`? -/
def isDefault (shape : Shape) : Bool := shape.selection == .default && shape.expand.isEmpty

/-- The items of a list, none of which may be empty. -/
def listItems (option : SystemOption) (value : String) : Except QueryError (List String) :=
  (value.toList.splitOn ',').mapM fun item =>
    let trimmed := Text.trimChars item
    if trimmed.isEmpty then .error (.malformed (.emptyItem option value))
    else .ok (String.ofList trimmed)

/-- Adds a path unless it is there. -/
def addNew (paths : List PropertyPath) (path : PropertyPath) : List PropertyPath :=
  if paths.contains path then paths else paths ++ [path]

/-- The property that an item of `$select` names. -/
def selectItem (model : Model) (type : TypeKey) (item : String) : Except QueryError PropertyPath :=
  if item.toList.contains '/' then .error (.malformed (.selectedPath item))
  else model.resolveProperty type item

/-- Reads the value of `$select`. -/
def parseSelect (model : Model) (type : TypeKey) (value : String) :
    Except QueryError Selection := do
  let items ← listItems .select value
  if items.contains "*" then return .all
  let paths ← items.mapM (selectItem model type)
  return .properties (paths.foldl addNew [])

/-- The path that an item of `$expand` names. -/
def expandItem (model : Model) (type : TypeKey) (item : String) :
    Except QueryError PropertyPath := do
  let path ← model.resolvePath type item
  if !path.terminal.navigable then
    throw (.resolution (.notExpandable path.terminal.name item))
  return path

/-- Reads the value of `$expand`. -/
def parseExpand (model : Model) (type : TypeKey) (value : String) :
    Except QueryError (List PropertyPath) := do
  let items ← listItems .expand value
  if items.contains "*" then
    let complexType ← model.complexType type
    return (complexType.properties.filter Property.navigable).map PropertyPath.single
  let paths ← items.mapM (expandItem model type)
  return paths.foldl addNew []

/-- Reads `$select` and `$expand`. -/
def parse (model : Model) (type : TypeKey) (raw : RawOptions) : Except QueryError Shape := do
  let selection ← match raw.value? .select with
    | none => pure Selection.default
    | some value => parseSelect model type value
  let expand ← match raw.value? .expand with
    | none => pure []
    | some value => parseExpand model type value
  return ⟨selection, expand⟩

end Shape

end EntityQuery
