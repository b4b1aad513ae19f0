import Rollout.System.Path

/-!
# Render/Layout — where the rendered files go

A `Layout` says which files are written where, and which template each of them is made from.
-/

namespace Rollout

/-- Where the text of a template comes from. -/
inductive TemplateSource where
  /-- It is the one that is built in. -/
  | embedded
  | file (path : String)
  deriving DecidableEq, Repr, Inhabited

/-- **Where files are written and what they are made from.** -/
structure Layout where
  configFile : String
  configDir : String
  mapsDir : String
  proxyTemplate : TemplateSource := .embedded
  filterTemplate : TemplateSource := .embedded
  mapTemplate : TemplateSource := .embedded
  /-- So many earlier versions of the main file are kept. -/
  maxOldFiles : Nat := 0
  /-- The control socket that the proxy opens. -/
  statsSocket : Option String := none
  deriving DecidableEq, Repr, Inhabited

namespace Layout

/-- The file for the request filter. -/
def filterFile (l : Layout) : String := Path.join l.configDir "spoe-modsecurity.conf"

end Layout

/-- **The file of a map in a directory.** -/
def mapPath (mapsDir name : String) : String := Path.join mapsDir (name ++ ".map")

end Rollout
