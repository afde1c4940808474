import ByteClass.Command

/-!
# The program

Runs the command with the arguments of the process.
-/

def main (arguments : List String) : IO UInt32 := do
  let outcome := ByteClass.Build.full.run arguments
  IO.print outcome.standardOutput
  IO.eprint outcome.standardError
  return outcome.exitCode.toUInt32
