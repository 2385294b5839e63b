import Uncertainty.CommandLine

/-!
The program.
-/

def main (arguments : List String) : IO UInt32 := do
  let outcome := Uncertainty.CommandLine.run arguments
  (← IO.getStdout).putStr outcome.output
  (← IO.getStderr).putStr outcome.errors
  return outcome.code.toUInt32
