import EntityQuery.CommandLine.Answer

/-!
# The command

Runs the command line over the arguments and writes what it leaves behind.
-/

/-- Answers a query over the sample catalog. -/
def main (arguments : List String) : IO UInt32 := do
  let outcome := EntityQuery.CommandLine.run arguments
  IO.print outcome.output
  IO.eprint outcome.report
  return outcome.code
