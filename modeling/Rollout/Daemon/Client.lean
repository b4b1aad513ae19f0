import Rollout.Daemon.Error
import Rollout.Daemon.Message
import Rollout.System.Clock
import Rollout.System.Sockets

/-!
# Daemon/Client — asking the daemon

Each request goes over a connection of its own.  A socket that is missing, or that nobody answers,
means that the daemon is not running.
-/

namespace Rollout.Client

variable {m : Type → Type} [Monad m] [FileSystem m] [LocalSockets m]

/-- Does a failed call mean that nobody is there? -/
def meansAbsent : SystemFault → Bool
  | .noEntry | .refused => true
  | _ => false

/-- The octets up to and with the first line feed. -/
def firstLine : List UInt8 → List UInt8
  | [] => []
  | b :: rest => if b = 10 then [b] else b :: firstLine rest

/-- **The response in what came back**: it is the first line, and nothing is a hang-up. -/
def readReply (socket : String) (bytes : ByteArray) : Except DaemonError Response :=
  match String.fromUTF8? ⟨(firstLine bytes.data.toList).toArray⟩ with
  | none => .error (.io socket .notText)
  | some line =>
    if line.isEmpty then .error .hungUp
    else
      match Response.ofText? (Text.trimEnd line) with
      | some r => .ok r
      | none => .error .badResponse

/-- **Send one request and read one response.** -/
def send (socket : String) (r : Request) : m (Except DaemonError Response) := do
  if ← FileSystem.exists? socket then
    match ← dial socket (r.text ++ "\n").toUTF8 with
    | .error (.connect fault) =>
      pure (.error (if meansAbsent fault then .notRunning socket else .io socket fault))
    | .error (.io fault) => pure (.error (.io socket fault))
    | .ok bytes => pure (readReply socket bytes)
  else pure (.error (.notRunning socket))

/-- What a response carries. -/
def Response.payload (r : Response) : Except DaemonError Value :=
  if r.ok then .ok (r.data.getD .null) else .error (.refused r.error)

/-- **Ask, and take what the response carries.** -/
def ask (socket : String) (r : Request) : m (Except DaemonError Value) := do
  match ← send socket r with
  | .error e => pure (.error e)
  | .ok r => pure (Response.payload r)

/-- Ask until somebody is there, with a pause before each new attempt. -/
def askPatiently [Clock m] (socket : String) (r : Request) : (more : Nat) →
    m (Except DaemonError Value)
  | 0 => ask socket r
  | more + 1 => do
    match ← ask socket r with
    | .error (.notRunning _) => do
      Clock.pause 100
      askPatiently socket r more
    | answer => pure answer

/-- **Ask how the daemon is.**  One that is just starting is waited for. -/
def status [Clock m] (socket : String) : m (Except DaemonError Value) :=
  askPatiently socket .status 4

/-- Have the daemon run a cycle, and take its summary. -/
def sync (socket : String) : m (Except DaemonError Value) := ask socket .sync

/-- Have the daemon stop. -/
def stop (socket : String) : m (Except DaemonError Unit) := do
  match ← ask socket .stop with
  | .ok _ => pure (.ok ())
  | .error e => pure (.error e)

end Rollout.Client
