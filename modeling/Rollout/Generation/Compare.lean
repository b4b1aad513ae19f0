import Rollout.Generation.Basic

/-!
# Generation/Compare — when two generations serve the same

`matchesOld` compares two generations as the running proxy sees them: everything but the servers
structurally, the servers of each backend as a multiset of address, port and weight of the enabled
ones.  Names, order and empty slots do not count.
-/

namespace Rollout

/-- What traffic sees of a server. -/
structure LiveServer where
  ip : String
  port : UInt16
  weight : UInt32
  deriving DecidableEq, Repr

/-- What traffic sees of the server. -/
def Server.live (s : Server) : LiveServer := ⟨s.ip, s.port, s.weight⟩

/-- What traffic sees of a backend, in list order. -/
def Backend.live (b : Backend) : List LiveServer := b.enabledServers.map Server.live

namespace Generation

/-- Do two generations agree in everything but the servers of their backends? -/
def sameRouting (g h : Generation) : Bool :=
  g.state.globals == h.state.globals && g.state.hosts == h.state.hosts
    && g.state.defaultBackend == h.state.defaultBackend && g.frontends == h.frontends
    && g.pathMaps == h.pathMaps

/-- Does the backend serve the same as the one of its id in a generation? -/
def servesLike (old : Generation) (b : Backend) : Bool :=
  match old.backend? b.id with
  | some p => b.sameSettings p && b.live.isPerm p.live
  | none => false

/-- **Does a generation serve the same as an earlier one?** -/
def serves (g old : Generation) : Bool :=
  g.sameRouting old && g.backends.length == old.backends.length
    && g.backends.all (servesLike old)

/-- Does a generation serve the same as the earlier one, if there is one? -/
def matchesOld (g : Generation) : Option Generation → Bool
  | some old => g.serves old
  | none => false

/-- Take over the server lists of a generation that serves the same, with the names and the
padding of the running process. -/
def adoptServers (g old : Generation) : Generation :=
  { g with state := { g.state with backends := old.state.backends } }

end Generation

end Rollout
