import Rollout.Diff.Unified
import Rollout.Render.Replace

/-!
# Render/Compare — what writing would change

`compareArtifacts` compares rendered files with those on disk and lists the ones that writing would
change.  Nothing is written.
-/

namespace Rollout

/-- The changes to one file. -/
structure FileChange where
  path : String
  changes : String
  deriving DecidableEq, Repr

variable {m : Type → Type} [Monad m] [FileSystem m]

/-- The text of a file with its lines ended by line feeds; empty if there is no file. -/
def currentText (path : String) : m (Except RenderError String) := do
  match ← FileSystem.readText path with
  | .ok s => pure (.ok (normalised s))
  | .error .noEntry => pure (.ok "")
  | .error e => pure (.error (.io path e))

/-- **Compare rendered files with those on disk**; files without a change are left out. -/
def compareArtifacts : List Artifact → m (Except RenderError (List FileChange))
  | [] => pure (.ok [])
  | a :: rest =>
    andThen (currentText a.path) fun current =>
      andThen (compareArtifacts rest) fun others =>
        let wanted := normalised a.content
        if current == wanted then pure (.ok others)
        else
          let changes := Diff.unified ("a/" ++ a.path) ("b/" ++ a.path) current wanted
          pure (.ok (⟨a.path, changes⟩ :: others))

/-- **Compare the files of a generation with those on disk.** -/
def Renderer.compare {τ : Type} [TemplateEngine τ] (r : Renderer τ) (g : Generation) :
    m (Except RenderError (List FileChange)) :=
  match r.render g with
  | .error e => pure (.error e)
  | .ok artifacts => compareArtifacts artifacts

end Rollout
