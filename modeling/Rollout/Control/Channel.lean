import Rollout.Control.Error
import Rollout.System.Sockets
import Rollout.Text.Blank

/-!
# Control/Channel — commands for the running proxy

A `Channel` sends one command and yields the reply.  The proxy has no other way to complain than
its reply, so a reply is a rejection unless it is blank or begins like an acknowledgement.
-/

namespace Rollout

/-- A channel takes a command line and answers with a text, or fails. -/
abbrev Channel (m : Type → Type) := String → m (Except ControlError String)

/-- How the proxy's acknowledgements begin. -/
def acknowledgements : List String := ["IP changed from", "no need to change", "port changed from"]

/-- **Is a reply a complaint?**  Anything but silence and a known acknowledgement is one. -/
def isRejection (reply : String) : Bool :=
  let cs := Text.trimList reply.toList
  !cs.isEmpty && !acknowledgements.any fun a => a.toList.isPrefixOf cs

/-- What a reply to a command means. -/
def judgeReply (command reply : String) : Except ControlError String :=
  if isRejection reply then .error (.rejected command (Text.trim reply)) else .ok reply

/-- **The channel over the proxy's control socket**, one connection for each command. -/
def controlChannel {m : Type → Type} [Monad m] [LocalSockets m] (socket : String) : Channel m :=
  fun command => do
    match ← dial socket (command ++ "\n").toUTF8 with
    | .error (.connect fault) => pure (.error (.connect socket fault))
    | .error (.io fault) => pure (.error (.io socket fault))
    | .ok bytes =>
      match String.fromUTF8? bytes with
      | some reply => pure (judgeReply command reply)
      | none => pure (.error (.io socket .notText))

end Rollout
