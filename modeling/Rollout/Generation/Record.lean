import Rollout.Generation.Basic
import Rollout.State.Record

/-!
# Generation/Record — generations as plain data
-/

namespace Rollout

/-- An entry as a record. -/
def MapEntry.toValue (e : MapEntry) : Value :=
  .record [("key", .text e.key), ("value", .text e.value)]

/-- A map as a record. -/
def MapFile.toValue (m : MapFile) : Value :=
  .record [("name", .text m.name), ("entries", .list (m.entries.map MapEntry.toValue))]

/-- A frontend as a record. -/
def Frontend.toValue (f : Frontend) : Value :=
  .record [("name", .text f.name), ("bind", .text f.bind), ("host_map", f.hostMap.toValue)]

/-- The frontends as a record. -/
def FrontendGroup.toValue (g : FrontendGroup) : Value :=
  .record [("http", g.http.toValue), ("https", g.https.toValue),
    ("passthrough", g.passthrough.toValue), ("redirect", g.redirect.toValue)]

namespace Generation

/-- The frontends of a generation, `null` before they are built. -/
def frontendsValue (g : Generation) : Value :=
  Value.ofOption (g.frontends.map FrontendGroup.toValue)

/-- The path maps of a generation, `null` before they are built. -/
def pathMapsValue (g : Generation) : Value :=
  Value.ofOption <| g.pathMaps.map fun ms => .record [("maps", .list (ms.map MapFile.toValue))]

/-- **A generation as a record.** -/
def toValue (g : Generation) : Value :=
  .record [("state", g.state.toValue), ("frontend_group", g.frontendsValue),
    ("backend_maps", g.pathMapsValue)]

end Generation

end Rollout
