import Rollout.Address
import Rollout.State.Basic

/-!
# State/Servers — naming, padding and ordering the servers of a backend

`Backend.freshName` is the first of `srv001`, `srv002`, … that no server carries.  `nameServers`
gives it to unnamed servers in list order, `pad` appends empty slots up to a multiple of an
increment, and `sortServers` orders by address.  Numbers are unbounded here; `Backend.padWord?` counts
in machine words, and says where these run out.
-/

namespace Rollout

/-- **The generated name of number `n`**: `srv` and at least three digits. -/
def serverName (n : Nat) : String := "srv" ++ Text.padded 3 n

/-- The first generated name from number `n` on that is not among `used`, looking at no more than
`fuel` of them before the last. -/
def freshNameFrom (used : List String) : (fuel n : Nat) → String
  | 0, n => serverName n
  | fuel + 1, n =>
    if used.contains (serverName n) then freshNameFrom used fuel (n + 1) else serverName n

/-- **The first generated name not among `used`.**  One of the first `used.length + 1` is free, so
the search never runs out. -/
def freshName (used : List String) : String := freshNameFrom used used.length 1

namespace Backend

/-- The first generated name that no server of the backend carries. -/
def freshName (b : Backend) : String := Rollout.freshName (b.servers.map (·.name))

end Backend

/-- Name the unnamed among `rest`, in order, where `named` holds the servers before them with
their names. -/
def nameServers (named : List Server) : List Server → List Server
  | [] => named
  | s :: rest =>
    let s' :=
      if s.name.isEmpty then
        { s with name := freshName ((named ++ s :: rest).map (·.name)) }
      else s
    nameServers (named ++ [s']) rest

/-- Append `missing` empty slots under fresh names. -/
def appendSlots (servers : List Server) : (missing : Nat) → List Server
  | 0 => servers
  | missing + 1 =>
    appendSlots (servers ++ [Server.emptySlot (freshName (servers.map (·.name)))]) missing

/-- **The least positive multiple of `increment` that is at least `n`.** -/
def roundUp (increment n : Nat) : Nat :=
  if n = 0 then increment else (n + increment - 1) / increment * increment

/-- The servers in front of which a server stands in the order: address text by address, then by
text, port and name. -/
def Server.before (s t : Server) : Bool :=
  let a := Address.rankOf s.ip
  let b := Address.rankOf t.ip
  if a.1 ≠ b.1 then a.1 < b.1
  else if a.2 ≠ b.2 then a.2 < b.2
  else if s.ip ≠ t.ip then s.ip < t.ip
  else if s.port ≠ t.port then s.port < t.port
  else s.name ≤ t.name

namespace Backend

/-- Every server named; names that were given stay. -/
def named (b : Backend) : Backend := { b with servers := nameServers [] b.servers }

/-- **Empty slots appended up to a multiple of `increment`**, which is never zero slots; increment
zero leaves the backend alone. -/
def pad (increment : Nat) (b : Backend) : Backend :=
  if increment = 0 then b
  else
    { b with
      servers := appendSlots b.servers (roundUp increment b.servers.length - b.servers.length) }

/-- The servers in address order: texts that are no address first, then version 4, then
version 6. -/
def sortServers (b : Backend) : Backend :=
  { b with servers := b.servers.mergeSort Server.before }

end Backend

end Rollout
