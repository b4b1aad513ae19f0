import Rollout.Daemon.History
import Rollout.Daemon.Message
import Rollout.Text.Lines

/-!
# Daemon/Session — serving one client

A client sends lines.  A line that is not blank is met with one response, and a request to stop ends the
session.  What a session asks of its daemon, and of the connection, is its `Desk`.
-/

namespace Rollout

/-- **What the session of a client needs.** -/
class Desk (m : Type → Type) where
  /-- The status, as a record. -/
  status : m Value
  /-- Put a job into the queue of the daemon.  There may be none any more. -/
  submit : CycleSource → m Bool
  /-- Wait for what comes of the job that was put there.  It may be dropped. -/
  outcome : m (Option (Except String CycleSummary))
  /-- Ask the daemon to stop. -/
  stop : m Unit
  /-- What is wrong with a line that is no request. -/
  complaint : String → m String
  /-- Send the line of a response to the client. -/
  respond : Response → m (Except SystemFault Unit)

namespace Session

variable {m : Type → Type} [Monad m] [Desk m]

/-- **Have a cycle run**, and wait for it. -/
def enqueue (source : CycleSource) : m (Except DaemonError CycleSummary) := do
  if ← Desk.submit source then
    match ← Desk.outcome with
    | none => pure (.error (.channelClosed "cycle response"))
    | some (.error reason) => pure (.error (.refused (some reason)))
    | some (.ok summary) => pure (.ok summary)
  else pure (.error (.channelClosed "cycle queue"))

/-- What is told of a cycle that was asked for. -/
def cycleResponse : Except DaemonError CycleSummary → Response
  | .ok summary => .success summary.toValue
  | .error e => .refusal e.message

/-- **Meet a request.** -/
def meet : Request → m Response
  | .status => Response.success <$> Desk.status
  | .sync => cycleResponse <$> enqueue .socket
  | .stop => do
    Desk.stop
    pure (.success (.record [("stopping", .bool true)]))
  | .other name => pure (.refusal ("unknown command '" ++ name ++ "'"))

/-- **Answer a line**, which may be no request. -/
def answer (line : String) : Option Request → m Response
  | some request => meet request
  | none => do
    let complaint ← Desk.complaint line
    pure (.refusal ("invalid request JSON: " ++ complaint))

/-- **Serve a client**, line by line, until one asks to stop. -/
def serve : List String → m (Except DaemonError Unit)
  | [] => pure (.ok ())
  | line :: rest =>
    if Text.isBlankText line then serve rest
    else do
      let request := Request.ofText? line
      match ← Desk.respond (← answer line request) with
      | .error fault => pure (.error (.io "daemon socket write" fault))
      | .ok () => if request = some .stop then pure (.ok ()) else serve rest

/-- A line without the carriage return at its end. -/
def dropReturn (cs : List Char) : List Char :=
  if cs.getLast? = some '\r' then cs.dropLast else cs

/-- The lines of what a client sends. -/
def linesOf (text : String) : List String :=
  (Text.splitAt '\n' text.toList).map fun line => String.ofList (dropReturn line)

end Session

end Rollout
