import EntityQuery.Number.Digits
import EntityQuery.Options.Query

/-!
# Arguments of the command line

The arguments are read from the left.  An option that takes a value has it attached, behind an
equality sign or not, or as the next argument, which must not look like an option itself.  No option
may be given twice.  Behind two hyphens alone every argument is the query, of which there is at most
one.

The request for help or for the version ends the reading; what stands behind it is not looked at.
-/

namespace EntityQuery.CommandLine

open Number

/-- The options of the command line. -/
inductive Switch
  | entitySet
  | maxTop
  | debug
  | compact
  | help
  | version
  deriving DecidableEq

namespace Switch

/-- Does a value belong to an option? -/
def takesValue : Switch → Bool
  | entitySet | maxTop => true
  | _ => false

/-- The long name of an option. -/
def name : Switch → String
  | entitySet => "entity-set"
  | maxTop => "max-top"
  | debug => "debug"
  | compact => "compact"
  | help => "help"
  | version => "version"

/-- The letter of an option. -/
def letter : Switch → Char
  | entitySet => 'e'
  | maxTop => 'm'
  | debug => 'd'
  | compact => 'c'
  | help => 'h'
  | version => 'V'

/-- All options. -/
def all : List Switch := [entitySet, maxTop, debug, compact, help, version]

/-- The option with a long name. -/
def ofName? (name : String) : Option Switch := all.find? fun option => option.name == name

/-- The option with a letter. -/
def ofLetter? (letter : Char) : Option Switch := all.find? fun option => option.letter == letter

end Switch

/-- What is wrong with the arguments. -/
inductive ArgumentError
  | unknown (argument : String)
  | unexpected (argument : String)
  | missingValue (option : Switch)
  | unwantedValue (option : Switch)
  | repeated (option : Switch)
  | notNumber (option : Switch) (value : String)
  deriving DecidableEq

/-- The message about wrong arguments. -/
def ArgumentError.message : ArgumentError → String
  | unknown argument | unexpected argument => s!"unexpected argument '{argument}' found"
  | missingValue option => s!"a value is required for '--{option.name}' but none was supplied"
  | unwantedValue option => s!"no value is expected for '--{option.name}'"
  | repeated option => s!"the argument '--{option.name}' cannot be used multiple times"
  | notNumber option value => s!"invalid value '{value}' for '--{option.name}'"

/-- What the command is to do with a query. -/
structure Arguments where
  query : String
  entitySet : String
  debug : Bool
  compact : Bool
  maxTop : Option Nat
  deriving DecidableEq, Inhabited

/-- What the command is asked for. -/
inductive Request
  | answer (arguments : Arguments)
  | help
  | version
  deriving DecidableEq, Inhabited

/-- The arguments read so far. -/
structure Given where
  query : Option String
  entitySet : Option String
  debug : Bool
  compact : Bool
  maxTop : Option Nat
  deriving Inhabited

namespace Given

/-- Nothing read. -/
def nothing : Given := ⟨none, none, false, false, none⟩

/-- The arguments with what is said by leaving them out. -/
def finish (given : Given) : Arguments :=
  ⟨given.query.getD "", given.entitySet.getD "Products", given.debug, given.compact, given.maxTop⟩

/-- Adds the query. -/
def addQuery (given : Given) (query : String) : Except ArgumentError Given :=
  if given.query.isSome then .error (.unexpected query)
  else .ok { given with query := some query }

/-- Adds an option with its value. -/
def addValue (given : Given) (option : Switch) (value : String) : Except ArgumentError Given :=
  match option with
  | .entitySet =>
    if given.entitySet.isSome then .error (.repeated option)
    else .ok { given with entitySet := some value }
  | .maxTop =>
    if given.maxTop.isSome then .error (.repeated option)
    else
      match readUnsignedUpTo? maxCount value.toList with
      | some n => .ok { given with maxTop := some n }
      | none => .error (.notNumber option value)
  | _ => .error (.unwantedValue option)

end Given

/-- Where the reading stands behind an argument: an option may wait for its value, or the request
may be known already. -/
inductive Progress
  | reading (given : Given) (waiting : Option Switch)
  | known (request : Request)

/-- Adds an option without a value. -/
def addSwitch (given : Given) (option : Switch) : Except ArgumentError Progress :=
  match option with
  | .help => .ok (.known .help)
  | .version => .ok (.known .version)
  | .debug =>
    if given.debug then .error (.repeated option)
    else .ok (.reading { given with debug := true } none)
  | .compact =>
    if given.compact then .error (.repeated option)
    else .ok (.reading { given with compact := true } none)
  | .entitySet | .maxTop => .ok (.reading given (some option))

/-- Adds an option with a value attached to it. -/
def addAttached (given : Given) (option : Switch) (value : List Char) :
    Except ArgumentError Progress :=
  (given.addValue option (String.ofList value)).map fun given => .reading given none

/-- Reads letters of options.  The rest behind the letter of an option with a value is the value. -/
def readLetters (given : Given) : List Char → Except ArgumentError Progress
  | [] => .ok (.reading given none)
  | c :: rest =>
    match Switch.ofLetter? c with
    | none => .error (.unknown (String.ofList ['-', c]))
    | some option =>
      if option.takesValue then
        match rest with
        | [] => .ok (.reading given (some option))
        | '=' :: value => addAttached given option value
        | value => addAttached given option value
      else
        match addSwitch given option with
        | .ok (.reading given none) => readLetters given rest
        | other => other

/-- Reads a long name, which may have a value attached. -/
def readName (given : Given) (cs : List Char) : Except ArgumentError Progress :=
  let name := cs.takeWhile (· != '=')
  match Switch.ofName? (String.ofList name), cs.drop name.length with
  | none, _ => .error (.unknown (String.ofList ('-' :: '-' :: name)))
  | some option, [] => addSwitch given option
  | some option, _ :: value => addAttached given option value

/-- Reads an argument that does not stand behind two hyphens. -/
def readArgument (given : Given) (argument : String) : Except ArgumentError Progress :=
  match argument.toList with
  | '-' :: '-' :: name => readName given name
  | '-' :: c :: letters => readLetters given (c :: letters)
  | _ => (given.addQuery argument).map fun given => .reading given none

/-- Does an argument look like an option? -/
def looksLikeOption (argument : String) : Bool :=
  match argument.toList with
  | '-' :: _ :: _ => true
  | _ => false

/-- Reads the arguments behind two hyphens. -/
def readQueries (given : Given) : List String → Except ArgumentError Request
  | [] => .ok (.answer given.finish)
  | argument :: rest => do readQueries (← given.addQuery argument) rest

/-- Reads arguments, the first of which may be the value of an option that waits for it. -/
def readArguments (given : Given) (waiting : Option Switch) :
    List String → Except ArgumentError Request
  | [] =>
    match waiting with
    | some option => .error (.missingValue option)
    | none => .ok (.answer given.finish)
  | argument :: rest =>
    match waiting with
    | some option =>
      if looksLikeOption argument then .error (.missingValue option)
      else do readArguments (← given.addValue option argument) none rest
    | none =>
      if argument == "--" then readQueries given rest
      else
        match readArgument given argument with
        | .error e => .error e
        | .ok (.known request) => .ok request
        | .ok (.reading given waiting) => readArguments given waiting rest

/-- Reads all arguments. -/
def Request.ofArguments (arguments : List String) : Except ArgumentError Request :=
  readArguments .nothing none arguments

end EntityQuery.CommandLine
