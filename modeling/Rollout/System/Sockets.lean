import Rollout.System.Fault

/-!
# System/Sockets — talking over local sockets

A local socket has a path for its address, and not every path can be one: `socketPathFault?` says
why not.
-/

namespace Rollout

/-- **Why a question got no answer.** -/
inductive DialFault where
  /-- Nobody took the call. -/
  | connect (fault : SystemFault)
  /-- The connection broke. -/
  | io (fault : SystemFault)
  deriving DecidableEq, Repr

/-- **A place with local sockets.** -/
class LocalSockets (m : Type → Type) where
  /-- Connect to the socket at a path, send octets, and read what comes back until the other side
  closes. -/
  exchange : String → ByteArray → m (Except DialFault ByteArray)
  /-- Does anybody take a call at a path? -/
  isAnswered : String → m Bool
  /-- Make a socket at a free path and listen to it. -/
  listen : String → m (Except SystemFault Unit)

/-- The address of a local socket has room for paths of fewer bytes than this. -/
def maxSocketPathBytes : Nat := 108

/-- **Why a path cannot be the address of a socket**, if it cannot. -/
def socketPathFault? (path : String) : Option SystemFault :=
  if path.toList.contains (Char.ofNat 0) then some .nulInSocketPath
  else if path.utf8ByteSize ≥ maxSocketPathBytes then some .socketPathTooLong
  else if path.isEmpty then some .invalid
  else none

variable {m : Type → Type} [Monad m] [LocalSockets m]

/-- **Ask the socket at a path**, if the path can be its address. -/
def dial (path : String) (request : ByteArray) : m (Except DialFault ByteArray) :=
  match socketPathFault? path with
  | some fault => pure (.error (.connect fault))
  | none => LocalSockets.exchange path request

/-- **Listen at a path**, if the path can be the address of a socket. -/
def listenAt (path : String) : m (Except SystemFault Unit) :=
  match socketPathFault? path with
  | some fault => pure (.error fault)
  | none => LocalSockets.listen path

end Rollout
