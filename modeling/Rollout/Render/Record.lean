import Rollout.Render.Compare
import Rollout.Settings

/-!
# Render/Record — layouts, templates and rendered files as plain data
-/

namespace Rollout

/-- A source as a text or as a record that names the file. -/
def TemplateSource.toValue : TemplateSource → Value
  | .embedded => .text "embedded"
  | .file path => .record [("file", .text path)]

/-- A layout as a record. -/
def Layout.toValue (l : Layout) : Value :=
  .record [
    ("haproxy", l.proxyTemplate.toValue),
    ("modsecurity", l.filterTemplate.toValue),
    ("map", l.mapTemplate.toValue),
    ("max_old_config_files", .nat l.maxOldFiles),
    ("modsecurity_file", .text l.filterFile),
    ("maps_dir", .text l.mapsDir),
    ("stats_socket", Value.ofOption (l.statsSocket.map .text))]

/-- What is noted of a template, as a record. -/
def TemplateInfo.toValue (i : TemplateInfo) : Value :=
  .record [
    ("name", .text i.name),
    ("output", Value.ofOption (i.output.map .text)),
    ("max_old_files", .nat i.maxOldFiles),
    ("size_hint", .nat i.sizeHint)]

/-- What is noted of each template. -/
def TemplateSet.toValue (s : TemplateSet) : Value := .list (s.map fun r => r.info.toValue)

/-- A rendered file as a record. -/
def Artifact.toValue (a : Artifact) : Value :=
  .record [
    ("path", .text a.path),
    ("content", .text a.content),
    ("max_old_files", .nat a.maxOldFiles)]

/-- What became of a file, as a record. -/
def Replaced.toValue (r : Replaced) : Value :=
  .record [("path", .text r.path), ("written", .bool r.isWritten)]

/-- The changes to a file as a record. -/
def FileChange.toValue (c : FileChange) : Value :=
  .record [("path", .text c.path), ("diff", .text c.changes)]

end Rollout
