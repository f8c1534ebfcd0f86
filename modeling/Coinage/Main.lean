import Coinage.Command.Line
/-!
# The program

Takes the words of the command line and the variables of the environment, and prints what the command
answers.
-/

open Coinage

def main (words : List String) : IO UInt32 := do
  let given ← Settings.keys.filterMapM fun key => do
    return (← IO.getEnv key).map fun value => (key, value)
  let exit := Command.execute (fun key => given.lookup key) words
  (← IO.getStdout).putStr exit.output
  (← IO.getStderr).putStr exit.errors
  return exit.code.toUInt32
