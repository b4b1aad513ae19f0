import Rollout.Note
import Rollout.System.Clock
import Rollout.System.Files
import Rollout.System.Launch
import Rollout.System.Sockets
import Rollout.Text.Lines

/-!
# System/Live — the machine the program runs on

Files, time and the log are those of the running program.  Commands are not run and local sockets
are not reached from here: both answer that they are not supported.
-/

namespace Rollout.Live

/-- The number of an error, zero if it has none. -/
def errorNumber : IO.Error → Nat
  | .alreadyExists _ n _ | .invalidArgument _ n _ | .permissionDenied _ n _
  | .resourceExhausted _ n _ | .inappropriateType _ n _ | .noSuchThing _ n _ => n.toNat
  | .otherError n _ | .resourceBusy n _ | .resourceVanished n _ | .unsupportedOperation n _
  | .hardwareFault n _ | .unsatisfiedConstraints n _ | .illegalOperation n _
  | .protocolError n _ | .timeExpired n _ => n.toNat
  | .interrupted _ n _ | .noFileOrDirectory _ n _ => n.toNat
  | .unexpectedEof | .userError _ => 0

/-- The positive one of a number and its negation, in words of 32 bits. -/
def magnitude (n : Nat) : Nat := if n < Nat.pow 2 31 then n else Nat.pow 2 32 - n

/-- Run an action, and take its failure as a fault. -/
def attempt {α : Type} (act : IO α) : IO (Except SystemFault α) := do
  match ← act.toBaseIO with
  | .ok a => pure (.ok a)
  | .error e => pure (.error (.ofNumber (magnitude (errorNumber e))))

instance : FileSystem IO where
  read path := attempt (IO.FS.readBinFile path)
  exists? path := (System.mkFilePath [path]).pathExists
  createDirectories path :=
    if path.isEmpty then pure (.ok ()) else attempt (IO.FS.createDirAll path)
  write path content := attempt (IO.FS.writeBinFile path content)
  makePrivate path := attempt (IO.setAccessRights path { user := { read := true, write := true } })
  remove path := attempt (IO.FS.removeFile path)
  rename source target := attempt (IO.FS.rename source target)
  copy source target := attempt do IO.FS.writeBinFile target (← IO.FS.readBinFile source)

instance : Launcher IO where
  launch _ _ := pure (.error .unsupported)
  processId := do
    let stat ← IO.FS.readFile "/proc/self/stat"
    pure ((Text.ofDigits 10 (stat.toList.takeWhile Text.isDigit)).getD 0)

instance : LocalSockets IO where
  exchange _ _ := pure (.error (.connect .unsupported))
  isAnswered _ := pure false
  listen _ := pure (.error .unsupported)

/-- The number behind a word that opens a line. -/
def numberBehind (word : String) (text : String) : Nat :=
  let lines := (Text.splitAt '\n' text.toList).filter word.toList.isPrefixOf
  let digits := lines.map fun line => (line.drop word.length).takeWhile Text.isDigit
  (digits.head?.bind (Text.ofDigits 10)).getD 0

instance : Clock IO where
  micros := do return (← IO.monoNanosNow) / 1000
  unixSeconds := do
    let booted := numberBehind "btime " (← IO.FS.readFile "/proc/stat")
    let up ← IO.FS.readFile "/proc/uptime"
    pure (booted + (Text.ofDigits 10 (up.toList.takeWhile Text.isDigit)).getD 0)
  pause millis := IO.sleep millis.toUInt32

instance : Journal IO where
  note n := IO.eprintln n.line

end Rollout.Live
