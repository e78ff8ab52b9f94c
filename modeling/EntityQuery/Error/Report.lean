/-!
# Error reports

What a client is told about an error: its kind, a message, and where they are known the name of what
is at fault and its position in the text.
-/

namespace EntityQuery

/-- The kinds of errors. -/
inductive ErrorKind
  | configuration
  | malformed
  | resolution
  | usage
  | validation
  | evaluation
  deriving DecidableEq, Inhabited

/-- The word that stands before a message. -/
def ErrorKind.heading : ErrorKind → String
  | configuration => "Configuration error"
  | malformed => "Syntax error"
  | resolution => "Resolution error"
  | usage => "Usage error"
  | validation => "Validation error"
  | evaluation => "Evaluation error"

/-- Can something be named as the target after the error was raised? -/
def ErrorKind.acceptsTarget : ErrorKind → Bool
  | malformed | usage => true
  | _ => false

/-- What a client is told about an error. -/
structure Report where
  kind : ErrorKind
  text : String
  target : Option String
  position : Option Nat
  deriving DecidableEq, Inhabited

namespace Report

/-- An error in the description of the host types. -/
def configuration (text : String) : Report := ⟨.configuration, text, none, none⟩

/-- An error in a text of which no part can be named. -/
def malformed (text : String) : Report := ⟨.malformed, text, none, none⟩

/-- An error in a text, with the fragment at fault. -/
def malformedIn (text fragment : String) : Report := ⟨.malformed, text, some fragment, none⟩

/-- An error in a text, with the fragment at fault and its position. -/
def malformedAt (text : String) (position : Nat) (fragment : String) : Report :=
  ⟨.malformed, text, some fragment, some position⟩

/-- A name that the model does not have. -/
def resolution (text target : String) : Report := ⟨.resolution, text, some target, none⟩

/-- A request that can never succeed. -/
def usage (text : String) (target : Option String) : Report := ⟨.usage, text, target, none⟩

/-- A query that is not allowed. -/
def validation (text target : String) : Report := ⟨.validation, text, some target, none⟩

/-- A record on which an expression has no value. -/
def evaluation (text : String) : Report := ⟨.evaluation, text, none, none⟩

/-- The message with its heading. -/
def message (report : Report) : String := report.kind.heading ++ ": " ++ report.text

/-- Names what is at fault, unless that is known already. -/
def withTarget (report : Report) (target : String) : Report :=
  if report.kind.acceptsTarget then { report with target := report.target.or (some target) }
  else report

/-- The first name stays. -/
theorem withTarget_withTarget (report : Report) (first second : String) :
    (report.withTarget first).withTarget second = report.withTarget first := by
  by_cases h : report.kind.acceptsTarget = true <;> cases ht : report.target <;>
    simp [withTarget, h, ht]

end Report

end EntityQuery
