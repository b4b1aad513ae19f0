import Rollout.State.Record
import Rollout.System.Files
import Rollout.System.Path
import Rollout.Yaml.Document
import Rollout.Yaml.Write

/-!
# State/Store — desired states in files

A state is loaded whole or not at all.  It is saved beside its file first, made private, and then
moved onto it, so that the file holds either the old or the new state at any time.  Both take the
format of the file as a parameter; `StateFormat.yaml` is the one in use.
-/

namespace Rollout

/-- How a desired state is written as text and read back. -/
structure StateFormat where
  encode : DesiredState → String
  decode : String → Option DesiredState

/-- **Desired states as YAML.** -/
def StateFormat.yaml : StateFormat where
  encode d := Yaml.render d.toValue
  decode text := Yaml.read? text DesiredState.read

/-- **Why a state cannot be loaded or saved.** -/
inductive StateError where
  | notFound (path : String)
  | io (fault : SystemFault)
  /-- The content of the file is no state. -/
  | parse (path : String)
  deriving DecidableEq, Repr

/-- The wording of an error. -/
def StateError.message : StateError → String
  | .notFound path => "desired state not found at " ++ path
  | .io fault => "I/O error: " ++ fault.message
  | .parse path => "failed to parse desired state at " ++ path ++ ": not a desired state"

namespace StateFormat

variable {m : Type → Type} [Monad m] [FileSystem m]

/-- **Load the state of a file.** -/
def load (format : StateFormat) (path : String) : m (Except StateError DesiredState) := do
  if ← FileSystem.exists? path then
    match ← FileSystem.readText path with
    | .error e => pure (.error (.io e))
    | .ok text =>
      match format.decode text with
      | some d => pure (.ok d)
      | none => pure (.error (.parse path))
  else pure (.error (.notFound path))

/-- Where a state is written before it is moved onto its file. -/
def draftPath (path : String) : String :=
  Path.withFileName path ((Path.fileName? path).getD "" ++ ".tmp")

/-- Make the directory that holds a path, unless it is the working directory. -/
def createParent (path : String) : m (Except SystemFault Unit) :=
  match (Path.parent? path).filter fun p => !p.isEmpty with
  | some parent => FileSystem.createDirectories parent
  | none => pure (.ok ())

/-- Move the draft onto the file; a draft that cannot be moved is removed. -/
def commit (draft path : String) : m (Except StateError Unit) := do
  match ← FileSystem.rename draft path with
  | .ok () => pure (.ok ())
  | .error e => do
    let _ ← FileSystem.remove draft
    pure (.error (.io e))

/-- **Save a state to a file**, private to its owner. -/
def save (format : StateFormat) (path : String) (d : DesiredState) :
    m (Except StateError Unit) := do
  let draft := draftPath path
  match ← createParent path with
  | .error e => pure (.error (.io e))
  | .ok () =>
    match ← FileSystem.writeText draft (format.encode d) with
    | .error e => pure (.error (.io e))
    | .ok () =>
      match ← FileSystem.makePrivate draft with
      | .error e => pure (.error (.io e))
      | .ok () => commit draft path

end StateFormat

end Rollout
