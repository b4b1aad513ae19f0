import Rollout.Json.Parse
import Rollout.Json.Print
import Rollout.Text.Blank
import Rollout.Value.Source

/-!
# Daemon/Message — what a client and the daemon say to each other

A client sends one request a line, the daemon answers each with one response a line.  Both are
JSON, written compactly, so that no line holds a line feed of its own.
-/

namespace Rollout

/-- **What a client asks for.** -/
inductive Request where
  | status
  /-- Run a cycle now. -/
  | sync
  | stop
  | other (name : String)
  deriving DecidableEq, Repr

namespace Request

/-- The name of a request. -/
def name : Request → String
  | .status => "status"
  | .sync => "sync"
  | .stop => "stop"
  | .other name => name

/-- The request of a name. -/
def ofName (name : String) : Request :=
  if name = "status" then .status
  else if name = "sync" then .sync
  else if name = "stop" then .stop
  else .other name

/-- A request as a record. -/
def toValue (r : Request) : Value := .record [("cmd", .text r.name)]

/-- Read a request. -/
def read {ν : Type} (s : Source ν) (v : ν) : Reading Request := do
  let fs ← s.fields ["cmd"] v
  ofName <$> Source.required fs "cmd" s.text

/-- The request a text spells. -/
def ofText? (text : String) : Option Request :=
  (Json.parse text).bind fun v => (read Value.source v).result?

/-- The line of a request, without its end. -/
def text (r : Request) : String := Json.compact r.toValue

end Request

/-- **What the daemon answers.** -/
structure Response where
  ok : Bool
  data : Option Value := none
  error : Option String := none
  deriving Repr, Inhabited

namespace Response

/-- The answer to a request that was met. -/
def success (data : Value) : Response := { ok := true, data := some data }

/-- The answer to a request that was not met. -/
def refusal (reason : String) : Response := { ok := false, error := some reason }

/-- A response as a record; what it lacks is left out. -/
def toValue (r : Response) : Value :=
  .record <|
    [("ok", .bool r.ok)] ++ Value.optionalField "data" (r.data.map Value.canonical)
      ++ Value.optionalField "error" (r.error.map .text)

/-- The names of the fields. -/
def fieldNames : List String := ["ok", "data", "error"]

/-- Read a response.  As a list it must be complete. -/
def read (v : Value) : Reading Response := do
  let s := Value.source
  if (v.items?.any fun vs => vs.length < fieldNames.length) then failure
  let fs ← s.fields fieldNames v
  let ok ← Source.required fs "ok" s.bool
  let data ← s.maybe fs "data" fun v => pure v.canonical
  let error ← s.maybe fs "error" s.text
  return { ok, data, error }

/-- The response a text spells. -/
def ofText? (text : String) : Option Response :=
  (Json.parse text).bind fun v => (read v).result?

/-- The text of a response, without the end of its line. -/
def text (r : Response) : String := Json.compact r.toValue

/-- **The line of a response.** -/
def line (r : Response) : String := r.text ++ "\n"

end Response

end Rollout
