import Rollout.System.Fault

/-!
# System/Launch — running a command to its end
-/

namespace Rollout

/-- **What a command leaves behind.** -/
structure Finished where
  /-- The status it exited with; none if a signal ended it. -/
  status : Option Int
  /-- What it wrote, its output and its errors as one stream. -/
  output : ByteArray

/-- Did the command exit with status zero? -/
def Finished.succeeded (f : Finished) : Bool := f.status == some 0

/-- **A place where commands run.** -/
class Launcher (m : Type → Type) where
  /-- Run a command with its arguments and wait for its end. -/
  launch : String → List String → m (Except SystemFault Finished)
  /-- The number of the process that runs this. -/
  processId : m Nat

/-- Can a text be an argument of a command?  A NUL would end it early. -/
def isArgument (s : String) : Bool := !s.toList.contains (Char.ofNat 0)

/-- **Run a command**, unless an argument cannot be passed on. -/
def runCommand {m : Type → Type} [Monad m] [Launcher m] (command : String)
    (arguments : List String) : m (Except SystemFault Finished) :=
  if (command :: arguments).all isArgument then Launcher.launch command arguments
  else pure (.error .nulInArgument)

end Rollout
