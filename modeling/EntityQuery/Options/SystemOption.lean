/-!
# System query options

The options of a query string that have a meaning of their own.  Their names begin with a dollar
sign; every other option is left to the application.
-/

namespace EntityQuery

/-- The options of a query. -/
inductive SystemOption
  | count
  | expand
  | filter
  | format
  | orderBy
  | search
  | select
  | skip
  | top
  deriving DecidableEq, Inhabited

namespace SystemOption

/-- The name of an option. -/
def name : SystemOption → String
  | count => "$count"
  | expand => "$expand"
  | filter => "$filter"
  | format => "$format"
  | orderBy => "$orderby"
  | search => "$search"
  | select => "$select"
  | skip => "$skip"
  | top => "$top"

instance : ToString SystemOption := ⟨name⟩

/-- All options, ordered by name. -/
def all : List SystemOption := [count, expand, filter, format, orderBy, search, select, skip, top]

/-- The option with a given name. -/
def ofName? (text : String) : Option SystemOption := all.find? fun option => option.name == text

theorem ofName?_name (option : SystemOption) : ofName? option.name = some option := by
  cases option <;> decide

end SystemOption

end EntityQuery
