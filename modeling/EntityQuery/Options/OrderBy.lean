import EntityQuery.Schema.Model
import EntityQuery.Text.Blank

/-!
# Order of the result

The value of `$orderby` lists paths, each with a direction that may be left out.  The property at
the end of a path has to have an order, so records and collections are refused.
-/

namespace EntityQuery

/-- The direction of a sort key. -/
inductive Direction
  | ascending
  | descending
  deriving DecidableEq, Inhabited

/-- The word for a direction. -/
def Direction.keyword : Direction → String
  | ascending => "asc"
  | descending => "desc"

/-- A sort key. -/
structure OrderKey where
  path : PropertyPath
  direction : Direction
  deriving DecidableEq, Inhabited

namespace OrderKey

/-- The text of a sort key. -/
def text (key : OrderKey) : String := key.path.text ++ " " ++ key.direction.keyword

instance : ToString OrderKey := ⟨text⟩

/-- Can records be ordered by values of a type? -/
def isOrderable : EdmType → Bool
  | .complex _ | .collection _ => false
  | _ => true

/-- The direction that a word behind a path stands for. -/
def readDirection (path : String) : Option String → Except QueryError Direction
  | none => .ok .ascending
  | some word =>
    if word == "asc" then .ok .ascending
    else if word == "desc" then .ok .descending
    else .error (.malformed (.invalidDirection path word))

/-- Reads one item of the list; the whole value is shown if the item is empty. -/
def parseItem (model : Model) (type : TypeKey) (value item : String) :
    Except QueryError OrderKey := do
  match Text.words item with
  | [] => throw (.malformed (.emptyKey value))
  | path :: rest =>
    let direction ← readDirection path rest.head?
    if let some extra := rest[1]? then throw (.malformed (.extraWord extra (Text.trim item)))
    let resolved ← model.resolvePath type path
    if !isOrderable resolved.terminal.type then throw (.malformed (.notOrderable path))
    return ⟨resolved, direction⟩

end OrderKey

/-- Reads the value of `$orderby`. -/
def parseOrderBy (model : Model) (type : TypeKey) (value : String) :
    Except QueryError (List OrderKey) :=
  (value.toList.splitOn ',').mapM fun item =>
    OrderKey.parseItem model type value (String.ofList item)

end EntityQuery
