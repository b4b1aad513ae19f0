import Rollout.Generation.Compare
import Rollout.Patch.Command

/-!
# Patch/Plan — the commands between two generations

When two generations differ only in the servers of their backends, the difference may be sent to
the running proxy.  Servers are matched by address and port: a changed weight is set in place, a
server that is gone goes into maintenance and becomes an empty slot (`release`), and a new server
takes over the first slot (`occupySlots`).  Without enough slots there is no plan.
-/

namespace Rollout

/-- What releasing leaves: the running list with its new slots, the commands that make it so, and
the wanted servers that are not running yet. -/
structure Released where
  running : List Server
  commands : List ServerCommand
  wanted : List Server
  deriving DecidableEq, Repr

/-- **Keep the running servers that are still wanted, empty the others.**  A wanted server is
matched once. -/
def release (backend : String) : (running wanted : List Server) → Released
  | [], wanted => ⟨[], [], wanted⟩
  | s :: rest, wanted =>
    if s.enabled then
      match wanted.find? s.sameTarget with
      | some t =>
        let r := release backend rest (wanted.eraseP s.sameTarget)
        if t.weight = s.weight then { r with running := s :: r.running }
        else
          { r with
            running := { s with weight := t.weight } :: r.running
            commands := ⟨backend, s.name, .setWeight t.weight⟩ :: r.commands }
      | none =>
        let r := release backend rest wanted
        { r with
          running := Server.emptySlot s.name :: r.running
          commands := ⟨backend, s.name, .maintain⟩ :: r.commands }
    else
      let r := release backend rest wanted
      { r with running := s :: r.running }

/-- Put a server into the first slot, whose name it takes. -/
def occupySlot (s : Server) : List Server → Option (String × List Server)
  | [] => none
  | t :: rest =>
    if t.isSlot then some (t.name, { s with name := t.name, enabled := true } :: rest)
    else (occupySlot s rest).map fun r => (r.1, t :: r.2)

/-- The commands that bring a server up in a slot: address and weight first, traffic last. -/
def occupyCommands (backend slot : String) (s : Server) : List ServerCommand :=
  [⟨backend, slot, .setAddress s.ip s.port⟩, ⟨backend, slot, .setWeight s.weight⟩,
    ⟨backend, slot, .makeReady⟩]

/-- **Put servers into slots, one after the other**; `none` when the slots run out. -/
def occupySlots (backend : String) : (wanted running : List Server) →
    Option (List Server × List ServerCommand)
  | [], running => some (running, [])
  | s :: rest, running =>
    match occupySlot s running with
    | none => none
    | some (slot, running) =>
      (occupySlots backend rest running).map fun r =>
        (r.1, occupyCommands backend slot s ++ r.2)

/-- The patched servers of a backend and the commands that lead there. -/
structure BackendPlan where
  id : String
  servers : List Server
  commands : List ServerCommand
  deriving DecidableEq, Repr

/-- **The plan of one backend.**  There is none if two wanted servers share address and port, or
if the slots run out. -/
def planBackend (old current : Backend) : Option BackendPlan :=
  let wanted := current.enabledServers
  if (wanted.map fun s => (s.ip, s.port)).Nodup then
    let r := release current.id old.servers wanted
    (occupySlots current.id r.wanted r.running).map fun (servers, commands) =>
      ⟨current.id, servers, r.commands ++ commands⟩
  else none

/-- Do two generations name the same backends? -/
def sameBackendIds (g h : Generation) : Bool :=
  (g.backends.all fun b => h.backends.any fun c => c.id == b.id)
    && h.backends.all fun b => g.backends.any fun c => c.id == b.id

/-- **The plan of every backend**, or `none` if the difference needs a reload. -/
def planPatch (old current : Generation) : Option (List BackendPlan) :=
  if current.sameRouting old && sameBackendIds old current then
    current.backends.mapM fun b =>
      match old.backend? b.id with
      | some p => if b.sameSettings p then planBackend p b else none
      | none => none
  else none

/-- The commands of a plan, in order. -/
def planCommands (plans : List BackendPlan) : List ServerCommand := plans.flatMap (·.commands)

end Rollout
