import Rollout.Note
import Rollout.System.Launch
import Rollout.Text.Lossy

/-!
# Proxy/Process — having the proxy check and pick up its files

Both steps run a command of the settings to its end.  One that is not set is skipped with a note,
so that an instance without commands still goes through its cycles.
-/

namespace Rollout

/-- **The commands of a proxy.** -/
structure ProxyCommands where
  /-- The proxy itself, which can check a file. -/
  check : Option String := none
  reload : Option String := none
  /-- How to reload, the first argument of the reload command. -/
  strategy : String
  configFile : String
  deriving DecidableEq, Repr

namespace ProxyCommands

variable {m : Type → Type} [Monad m] [Launcher m] [Journal m]

/-- What a check that ended says. -/
def judgeCheck (f : Finished) : Except ProcessError Unit :=
  if f.succeeded then .ok () else .error (.validation (Text.lossy f.output))

/-- What a reload that ended says. -/
def judgeReload (f : Finished) : Except ProcessError Unit :=
  if f.succeeded then .ok () else .error (.reload f.status (Text.lossy f.output))

/-- **Have the proxy check the written file.** -/
def validate (c : ProxyCommands) : m (Except ProcessError Unit) :=
  match c.check with
  | none => do
    Journal.note .validationSkipped
    pure (.ok ())
  | some command => do
    match ← runCommand command ["-c", "-f", c.configFile] with
    | .error fault => pure (.error (.spawn command fault))
    | .ok f => pure (judgeCheck f)

/-- **Have the proxy pick up the written file.**  What the command says is noted, and is no failure
by itself. -/
def runReload (c : ProxyCommands) : m (Except ProcessError Unit) :=
  match c.reload with
  | none => do
    Journal.note .reloadSkipped
    pure (.ok ())
  | some command => do
    match ← runCommand command [c.strategy, c.configFile] with
    | .error fault => pure (.error (.spawn command fault))
    | .ok f => do
      if f.output.size > 0 then
        Journal.note (.reloadOutput (Text.lossy f.output))
      pure (judgeReload f)

end ProxyCommands

end Rollout
