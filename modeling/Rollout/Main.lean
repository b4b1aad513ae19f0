import Rollout.CommandLine.Run
import Rollout.System.Live

/-!
# Main — the program
-/

open Rollout

/-- Run the program, print what it has to say, and end with its status. -/
def main (arguments : List String) : IO UInt32 := do
  let exit : Exit ← CommandLine.run (fun _ => pure (.ok ())) arguments
  (← IO.getStdout).putStr exit.output
  (← IO.getStderr).putStr exit.errors
  pure exit.status.toUInt32
