import BearerCredentials.CommandLine
import Std.Time.DateTime.Timestamp

/-!
# The command

Reads the environment, the arguments, standard input and the clock, and runs the command line on them.
-/

open BearerCredentials

/-- the environment variables that are read, with their values -/
def readEnvironment : IO Environment := do
  let values ← Environment.names.mapM fun name => return (name, ← IO.getEnv name)
  return fun name => (values.lookup name).join

/-- runs the command line on the surroundings of the process -/
def main (arguments : List String) : IO UInt32 := do
  let environment ← readEnvironment
  let now ← Std.Time.Timestamp.now
  let input ←
    if arguments = [] ∨ arguments.head? = some "-" then (← IO.getStdin).readBinToEnd
    else pure .empty
  let invocation := { arguments, input := input.toList, environment }
  let outcome := CommandLine.run standardScheme now.toSecondsSinceUnixEpoch.val.toNat invocation
  (← IO.getStdout).putStr outcome.output
  return outcome.exitCode.toUInt32
