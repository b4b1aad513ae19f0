import Rollout.System.Fault

/-!
# System/Files — the file operations the library needs

Whatever touches files is written over any monad that offers these operations, and so runs alike
on a modelled tree, on one that records every state it passes through, and on a disk.
-/

namespace Rollout

/-- **The primitive operations on files**, each by path.  Every one follows symbolic links except
where it says otherwise. -/
class FileSystem (m : Type → Type) where
  /-- The content of a file. -/
  read : String → m (Except SystemFault ByteArray)
  /-- Is there anything at the path? -/
  exists? : String → m Bool
  /-- Make a directory and those above it that are missing. -/
  createDirectories : String → m (Except SystemFault Unit)
  /-- Make the file hold exactly this content, creating it if needed. -/
  write : String → ByteArray → m (Except SystemFault Unit)
  /-- Let only the owner read and write the file. -/
  makePrivate : String → m (Except SystemFault Unit)
  /-- Remove a file, or a link itself. -/
  remove : String → m (Except SystemFault Unit)
  /-- Move a file, directory or link onto the second path. -/
  rename : String → String → m (Except SystemFault Unit)
  /-- Copy the content of a regular file onto the second path. -/
  copy : String → String → m (Except SystemFault Unit)

namespace FileSystem

variable {m : Type → Type} [Monad m] [FileSystem m]

/-- **The content of a file as text.** -/
def readText (path : String) : m (Except SystemFault String) := do
  match ← read path with
  | .error e => pure (.error e)
  | .ok bytes =>
    match String.fromUTF8? bytes with
    | some s => pure (.ok s)
    | none => pure (.error .notText)

/-- Make the file hold exactly this text. -/
def writeText (path text : String) : m (Except SystemFault Unit) := write path text.toUTF8

end FileSystem

end Rollout
