import EntityQuery.Catalog.Data
import EntityQuery.CommandLine.Arguments
import EntityQuery.Options.Policy

/-!
# Answers of the command

The command answers a query over the sample catalog.  The answer is a JSON object with the matching
records and, where they are known, their number and the link to the next page.  An error is reported
with the step that failed before the message.
-/

namespace EntityQuery.CommandLine

open Text

/-- What a run of the command leaves behind: an exit code and what it wrote. -/
structure Outcome where
  code : UInt32
  output : String
  report : String
  deriving DecidableEq, Inhabited

/-- The steps of answering a query. -/
inductive Step
  | model
  | parse
  | validation
  | execution
  | serialization
  deriving DecidableEq

/-- What is said when a step fails. -/
def Step.failure : Step → String
  | model => "Failed to build the sample model"
  | parse => "Failed to parse the query string"
  | validation => "The query was rejected"
  | execution => "Failed to execute the query"
  | serialization => "Failed to serialize the response"

/-- A step that failed, and the message of what went wrong. -/
structure Failure where
  step : Step
  message : String
  deriving DecidableEq

/-- Every line but the first with four blanks before it. -/
def indentLines (text : String) : String :=
  String.ofList (text.toList.flatMap fun c => if c == '\n' then ['\n', ' ', ' ', ' ', ' '] else [c])

/-- The report of a failure. -/
def Failure.report (failure : Failure) : String :=
  "Error: " ++ failure.step.failure ++ "\n\nCaused by:\n    " ++ indentLines failure.message ++ "\n"

/-- A step that may fail with the error of a query. -/
def during {α : Type} (step : Step) : Except QueryError α → Except Failure α
  | .ok a => .ok a
  | .error e => .error ⟨step, e.report.message⟩

/-- A field of an object, unless there is nothing to say. -/
def optionalField (name : String) : Option Json → List (String × Json)
  | some json => [(name, json)]
  | none => []

/-- The object that a page is written as. -/
def pageJson (page : Page) (link : Option String) : Except UnprojectedRecord Json := do
  let records ← ProjectedRecord.toJsonAll page.records
  return .object
    (optionalField "@odata.count" (page.count.map Json.ofNat) ++ [("value", .array records)] ++
      optionalField "@odata.nextLink" (link.map Json.string))

/-- The link to the page behind one. -/
def nextLink (query : Query) (page : Page) : Option String :=
  page.nextSkip.map (query.nextLink ("/" ++ query.set.name))

/-- The policy that the arguments ask for. -/
def policy (arguments : Arguments) : Policy :=
  { Policy.unrestricted with maxTop := arguments.maxTop }

/-- The text of the answer to a query. -/
def answer (arguments : Arguments) : Except Failure String := do
  let model ← during .model Catalog.model
  let query ← during .parse (Query.parse model arguments.entitySet arguments.query)
  during .validation ((policy arguments).check query)
  let page ← during .execution (Catalog.execute query)
  match pageJson page (nextLink query page) with
  | .ok json => return if arguments.compact then json.compact else json.indented
  | .error found => throw ⟨.serialization, found.message⟩

/-- How the command is used. -/
def usageText : String :=
  "Usage: entityquery [OPTIONS] [QUERY]\n\n" ++
    "  -e, --entity-set <NAME>  entity set to query, Products unless given\n" ++
    "  -d, --debug              say more\n" ++
    "  -c, --compact            write the answer on a single line\n" ++
    "  -m, --max-top <NUMBER>   largest $top that a query may ask for\n" ++
    "  -h, --help               show this text\n" ++
    "  -V, --version            show the version\n"

/-- The version of the command. -/
def versionText : String := "entityquery 0.1.0\n"

/-- Runs the command. -/
def run (arguments : List String) : Outcome :=
  match Request.ofArguments arguments with
  | .error e => ⟨2, "", "error: " ++ e.message ++ "\n\n" ++ usageText⟩
  | .ok .help => ⟨0, usageText, ""⟩
  | .ok .version => ⟨0, versionText, ""⟩
  | .ok (.answer arguments) =>
    match answer arguments with
    | .ok text => ⟨0, text ++ "\n", ""⟩
    | .error failure => ⟨1, "", failure.report⟩

end EntityQuery.CommandLine
