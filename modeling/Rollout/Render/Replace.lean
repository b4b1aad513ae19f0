import Rollout.Render.Renderer

/-!
# Render/Replace — writing files without exposing half of one

`replaceFile` writes the new content beside a file and moves it onto the file last, so that at any
time the file holds either its old or its new content.  Content that is there already is left
alone.  Earlier versions are kept under numbered names, the youngest under the lowest.
-/

namespace Rollout

/-- What writing a file did. -/
inductive Replaced where
  | written (path : String)
  /-- The file held this content already. -/
  | unchanged (path : String)
  deriving DecidableEq, Repr

namespace Replaced

/-- The file. -/
def path : Replaced → String
  | .written p => p
  | .unchanged p => p

/-- Was the file written? -/
def isWritten : Replaced → Bool
  | .written _ => true
  | .unchanged _ => false

end Replaced

/-- Every line feed without the carriage return before it. -/
def unixLines : List Char → List Char
  | '\r' :: '\n' :: cs => '\n' :: unixLines cs
  | c :: cs => c :: unixLines cs
  | [] => []

/-- **A text with its lines ended by line feeds.** -/
def normalised (s : String) : String := String.ofList (unixLines s.toList)

/-- Where a file is written before it is moved into its place. -/
def draftOf (path : String) : String := path ++ ".haconf.tmp"

variable {m : Type → Type} [Monad m] [FileSystem m]

/-- Go on after a step that succeeded. -/
def andThen {ε α β : Type} (step : m (Except ε α)) (next : α → m (Except ε β)) :
    m (Except ε β) := do
  match ← step with
  | .error e => pure (.error e)
  | .ok a => next a

/-- Move every numbered version one number up, from `n` down to the first. -/
def shiftVersions (path : String) : (n : Nat) → m (Except SystemFault Unit)
  | 0 => pure (.ok ())
  | n + 1 => do
    let source := Path.numbered path (n + 1)
    if ← FileSystem.exists? source then
      andThen (FileSystem.rename source (Path.numbered path (n + 2))) fun _ =>
        shiftVersions path n
    else shiftVersions path n

/-- Make room for one more version and copy the file there; the oldest goes. -/
def keepVersion (path : String) (maxOld : Nat) : m (Except SystemFault Unit) := do
  let oldest := Path.numbered path maxOld
  let removed ←
    if ← FileSystem.exists? oldest then FileSystem.remove oldest else pure (.ok ())
  andThen (pure removed) fun _ =>
    andThen (shiftVersions path (maxOld - 1)) fun _ =>
      FileSystem.copy path (Path.numbered path 1)

/-- Keep the version that is there, if versions are kept. -/
def keepIfAny (path : String) (maxOld : Nat) : m (Except SystemFault Unit) := do
  if maxOld > 0 then
    if ← FileSystem.exists? path then keepVersion path maxOld else pure (.ok ())
  else pure (.ok ())

/-- Move a draft into its place; what fails is reported after the draft is removed. -/
def commitDraft (path draft : String) (maxOld : Nat) : m (Except SystemFault Unit) := do
  match ← andThen (keepIfAny path maxOld) fun _ => FileSystem.rename draft path with
  | .ok () => pure (.ok ())
  | .error e => do
    let _ ← FileSystem.remove draft
    pure (.error e)

/-- Report a fault at a path. -/
def atPath {α : Type} (path : String) (step : m (Except SystemFault α)) :
    m (Except RenderError α) :=
  Except.mapError (.io path) <$> step

/-- The content of a file, if there is one. -/
def currentContent (path : String) : m (Except RenderError (Option ByteArray)) := do
  match ← FileSystem.read path with
  | .ok bytes => pure (.ok (some bytes))
  | .error .noEntry => pure (.ok none)
  | .error e => pure (.error (.io path e))

/-- Make the directory of a file. -/
def createDirectoryOf (path : String) : m (Except RenderError Unit) :=
  match Path.parent? path with
  | some parent => atPath parent (FileSystem.createDirectories parent)
  | none => pure (.ok ())

/-- **Replace a file by a text**, and keep `maxOld` earlier versions of it.  Whether the file holds the text
already is decided octet by octet; digests of the two decide the same unless two contents share one. -/
def replaceFile (path content : String) (maxOld : Nat) : m (Except RenderError Replaced) :=
  let text := normalised content
  let draft := draftOf path
  andThen (currentContent path) fun current =>
    if current == some text.toUTF8 then pure (.ok (.unchanged path))
    else
      andThen (createDirectoryOf path) fun _ =>
        andThen (atPath draft (FileSystem.writeText draft text)) fun _ =>
          andThen (atPath path (commitDraft path draft maxOld)) fun _ =>
            pure (.ok (.written path))

/-- **Write rendered files one after the other**, up to the first that fails. -/
def writeArtifacts : List Artifact → m (Except RenderError (List Replaced))
  | [] => pure (.ok [])
  | a :: rest =>
    andThen (replaceFile a.path a.content a.maxOldFiles) fun r =>
      andThen (writeArtifacts rest) fun rs => pure (.ok (r :: rs))

namespace Renderer

variable {τ : Type} [TemplateEngine τ]

/-- **Write the files of a generation**; none is touched unless all can be rendered. -/
def write (r : Renderer τ) (g : Generation) : m (Except RenderError (List Replaced)) :=
  match r.render g with
  | .error e => pure (.error e)
  | .ok artifacts => writeArtifacts artifacts

end Renderer

end Rollout
