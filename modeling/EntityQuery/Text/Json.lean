import EntityQuery.Text.Hex

/-!
# JSON texts

Trees of JSON and their two layouts: on a single line without any blanks, and with every item on a
line of its own, indented by two blanks a level.  A number is kept as the text it is written with.
An empty array or object has nothing between its brackets in either layout.

In a text only the quotation mark, the backslash and the control characters of ASCII are escaped.
-/

namespace EntityQuery.Text

/-- A tree of JSON.  The fields of an object keep their order. -/
inductive Json
  | null
  | boolean (b : Bool)
  | number (text : String)
  | string (text : String)
  | array (items : List Json)
  | object (fields : List (String × Json))
  deriving Inhabited

namespace Json

/-- A character inside a text. -/
def escape (c : Char) : List Char :=
  if c == '"' || c == '\\' then ['\\', c]
  else if c == '\n' then ['\\', 'n']
  else if c == '\r' then ['\\', 'r']
  else if c == '\t' then ['\\', 't']
  else if c == '\x08' then ['\\', 'b']
  else if c == '\x0c' then ['\\', 'f']
  else if c.toNat < 32 then '\\' :: 'u' :: hexDigits 4 c.toNat
  else [c]

/-- A text between quotation marks. -/
def quote (text : String) : String :=
  String.ofList ('"' :: (text.toList.flatMap escape ++ ['"']))

/-- What stands before an item at a depth, and between the name and the value of a field. -/
structure Layout where
  before : Nat → String
  colon : String

/-- Everything on a single line. -/
def Layout.compact : Layout := ⟨fun _ => "", ":"⟩

/-- Every item on a line of its own. -/
def Layout.indented : Layout :=
  ⟨fun depth => String.ofList ('\n' :: List.replicate (2 * depth) ' '), ": "⟩

/-- Items between brackets that stand at a depth. -/
def Layout.enclose (layout : Layout) (depth : Nat) (opening closing : String)
    (items : List String) : String :=
  if items.isEmpty then opening ++ closing
  else
    opening ++ String.intercalate "," (items.map (layout.before (depth + 1) ++ ·)) ++
      layout.before depth ++ closing

mutual

/-- The text of a tree at a depth. -/
def write (layout : Layout) (depth : Nat) : Json → String
  | null => "null"
  | boolean b => toString b
  | number text => text
  | string text => quote text
  | array items => layout.enclose depth "[" "]" (writeItems layout (depth + 1) items)
  | object fields => layout.enclose depth "\x7b" "\x7d" (writeFields layout (depth + 1) fields)

/-- The texts of the items of an array. -/
def writeItems (layout : Layout) (depth : Nat) : List Json → List String
  | [] => []
  | item :: items => write layout depth item :: writeItems layout depth items

/-- The texts of the fields of an object. -/
def writeFields (layout : Layout) (depth : Nat) : List (String × Json) → List String
  | [] => []
  | (name, value) :: fields =>
    (quote name ++ layout.colon ++ write layout depth value) :: writeFields layout depth fields

end

/-- The text on a single line. -/
def compact (json : Json) : String := json.write .compact 0

/-- The text with every item on a line of its own. -/
def indented (json : Json) : String := json.write .indented 0

/-- A number that is an integer. -/
def ofNat (n : Nat) : Json := number (toString n)

end Json

end EntityQuery.Text
