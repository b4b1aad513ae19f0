import Rollout.Proofs.State.Naming

/-!
# Proofs/State/Assigned — which names unnamed servers are given

Each server is named against the servers before it, which have their names by then, and those after it,
which may not (`Server.assigned`).  A generated name is the next one that is free at that time; no later
server takes it (`not_mem_assignNames`), so it stays apart from all others.  Where every server has a name
there is nothing left to do (`nameServers_of_named`).
-/

namespace Rollout

variable {named rest : List Server}

/-! ## One server -/

namespace Server

/-- A server with its name, where `named` stand before it and `rest` after it. -/
def assigned (named : List Server) (s : Server) (rest : List Server) : Server :=
  if s.name.isEmpty then { s with name := freshName ((named ++ s :: rest).map (·.name)) } else s

variable {s : Server}

theorem assigned_of_named (h : s.name ≠ "") : s.assigned named rest = s :=
  if_neg fun he => h (String.isEmpty_iff.mp he)

theorem name_assigned (h : s.name = "") :
    (s.assigned named rest).name = freshName ((named ++ s :: rest).map (·.name)) := by
  rw [assigned, if_pos (String.isEmpty_iff.mpr h)]

/-- Only the name changes. -/
theorem assigned_eq : s.assigned named rest = { s with name := (s.assigned named rest).name } := by
  by_cases h : s.name = ""
  · rw [assigned, if_pos (String.isEmpty_iff.mpr h)]
  · rw [assigned_of_named h]

theorem name_assigned_ne_empty : (s.assigned named rest).name ≠ "" := by
  by_cases h : s.name = ""
  · obtain ⟨n, hn⟩ := exists_freshName_eq ((named ++ s :: rest).map (·.name))
    rw [name_assigned h, hn]
    exact (soundName_serverName n).ne_empty
  · rwa [assigned_of_named h]

/-- **The generated name is the first one that no other server carries.** -/
theorem name_assigned_isLeast (named rest : List Server) (h : s.name = "") : ∃ n,
    (s.assigned named rest).name = serverName n ∧
      IsLeast {m | 0 < m ∧ serverName m ∉ (named ++ rest).map (·.name)} n := by
  obtain ⟨n, -, hn, hleast⟩ := freshName_isLeast ((named ++ s :: rest).map (·.name))
  have hfree (m : Nat) : serverName m ∉ (named ++ s :: rest).map (·.name) ↔
      serverName m ∉ (named ++ rest).map (·.name) := by
    have := (soundName_serverName m).ne_empty
    simp [h, this]
  simp only [hfree] at hleast
  exact ⟨n, (name_assigned h).trans hn, hleast⟩

theorem name_assigned_not_mem (named rest : List Server) (h : s.name = "") :
    (s.assigned named rest).name ∉ (named ++ rest).map (·.name) := by
  obtain ⟨n, hn, ⟨-, hfree⟩, -⟩ := name_assigned_isLeast named rest h
  rwa [hn]

end Server

/-! ## All servers -/

/-- The servers `rest` with their names, where `named` stand before them. -/
def assignNames (named : List Server) : List Server → List Server
  | [] => []
  | s :: rest => s.assigned named rest :: assignNames (named ++ [s.assigned named rest]) rest

/-- Naming goes on behind the servers that have their names. -/
theorem nameServers_eq : ∀ rest named : List Server,
    nameServers named rest = named ++ assignNames named rest
  | [], named => (List.append_nil named).symm
  | s :: rest, named => by
      rw [nameServers, nameServers_eq rest, assignNames, List.append_assoc]
      rfl

/-- Naming a list is naming its front, in view of the rest, and then the rest. -/
theorem assignNames_append (rest : List Server) : ∀ earlier named : List Server, ∃ earlier',
    earlier'.length = earlier.length ∧
      assignNames named (earlier ++ rest) = earlier' ++ assignNames (named ++ earlier') rest
  | [], named => ⟨[], rfl, by rw [List.append_nil]; rfl⟩
  | s :: earlier, named => by
      obtain ⟨earlier', hlength, heq⟩ :=
        assignNames_append rest earlier (named ++ [s.assigned named (earlier ++ rest)])
      refine ⟨s.assigned named (earlier ++ rest) :: earlier', congrArg (· + 1) hlength, ?_⟩
      rw [List.cons_append, assignNames, heq, List.append_assoc]
      rfl

/-- **No later server takes a name** that is carried before it. -/
theorem not_mem_assignNames {name : String} : ∀ {rest named : List Server},
    name ∈ named.map (·.name) → name ∉ rest.map (·.name) →
      name ∉ (assignNames named rest).map (·.name)
  | [], _, _, _ => List.not_mem_nil
  | s :: rest, named, hmem, hnot => by
      obtain ⟨hs, hrest⟩ := not_or.mp (mt List.mem_cons.mpr hnot)
      rw [assignNames, List.map_cons, List.mem_cons, not_or]
      refine ⟨?_, not_mem_assignNames ?_ hrest⟩
      · by_cases h : s.name = ""
        · rintro rfl
          refine Server.name_assigned_not_mem named rest h ?_
          rw [List.map_append]
          exact List.mem_append_left _ hmem
        · rwa [Server.assigned_of_named h]
      · rw [List.map_append]
        exact List.mem_append_left _ hmem

/-- **Servers with names are left alone.** -/
theorem nameServers_of_named : ∀ {rest named : List Server},
    (∀ s ∈ rest, s.name ≠ "") → nameServers named rest = named ++ rest
  | [], named, _ => (List.append_nil named).symm
  | s :: rest, named, h => by
      obtain ⟨hs, hrest⟩ := List.forall_mem_cons.mp h
      rw [nameServers, if_neg fun he => hs (String.isEmpty_iff.mp he), nameServers_of_named hrest,
        List.append_assoc]
      rfl

theorem forall₂_assignNames : ∀ {rest named : List Server},
    List.Forall₂ (fun s s' => s' = { s with name := s'.name } ∧ (s.name ≠ "" → s'.name = s.name))
      rest (assignNames named rest)
  | [], _ => .nil
  | _ :: _, _ => .cons
      ⟨Server.assigned_eq, fun h => congrArg Server.name (Server.assigned_of_named h)⟩
      forall₂_assignNames

theorem name_ne_empty_of_mem_assignNames : ∀ {rest named : List Server} {s : Server},
    s ∈ assignNames named rest → s.name ≠ ""
  | _ :: _, _, _, h => by
      rcases List.mem_cons.mp h with rfl | h
      · exact Server.name_assigned_ne_empty
      · exact name_ne_empty_of_mem_assignNames h

/-! ## What naming does -/

/-- **What naming makes of the servers of a backend.**  Nothing but missing names changes, and none is
missing afterwards.  In list order, each server without a name is given the first `srvNNN` that no other
server carries at that time: neither one before it, with the name it has by then, nor one after it.  In the
end, too, no other server carries it. -/
structure AreNamed (servers servers' : List Server) : Prop where
  kept : List.Forall₂ (fun s s' => s' = { s with name := s'.name } ∧ (s.name ≠ "" → s'.name = s.name))
    servers servers'
  filled : ∀ s ∈ servers', s.name ≠ ""
  generated : ∀ earlier s later, servers = earlier ++ s :: later → s.name = "" →
    ∃ earlier' s' later', servers' = earlier' ++ s' :: later' ∧ earlier'.length = earlier.length ∧
      (∃ n, s'.name = serverName n ∧
        IsLeast {m | 0 < m ∧ serverName m ∉ (earlier' ++ later).map (·.name)} n) ∧
      s'.name ∉ (earlier' ++ later').map (·.name)
  distinct : (servers'.map (·.name)).Nodup ↔ (givenNames servers).Nodup

theorem areNamed_nameServers (servers : List Server) : AreNamed servers (nameServers [] servers) where
  kept := by
    rw [nameServers_eq]
    exact forall₂_assignNames
  filled s hs := by
    rw [nameServers_eq] at hs
    exact name_ne_empty_of_mem_assignNames hs
  generated := by
    rintro earlier s later rfl h
    obtain ⟨earlier', hlength, heq⟩ := assignNames_append (s :: later) earlier []
    refine ⟨earlier', s.assigned earlier' later, assignNames _ later,
      (nameServers_eq _ _).trans heq, hlength, Server.name_assigned_isLeast _ _ h, ?_⟩
    have hfree := Server.name_assigned_not_mem earlier' later h
    rw [List.map_append, List.mem_append, not_or] at hfree ⊢
    refine ⟨hfree.1, not_mem_assignNames ?_ hfree.2⟩
    rw [List.map_append]
    exact List.mem_append_right _ (List.mem_singleton_self _)
  distinct := nodup_nameServers_iff

namespace Generation

/-- **Every desired state becomes one in which all servers have names**: other fields stay, each backend's
servers are named as `AreNamed` says, and doing it again changes nothing.  The numbers in names are unbounded
here; a counter of 32 bits with a sign finds the same names for up to `2 ^ 31 - 2` servers in a backend, one
of which has no name yet (`NameSearch.found?_eq_some_iff`). -/
theorem ofState_areNamed (d : DesiredState) :
    ofState d = { state := { d with backends := (ofState d).state.backends } } ∧
      List.Forall₂ (fun b b' : Backend =>
          b' = { b with servers := b'.servers } ∧ AreNamed b.servers b'.servers)
        d.backends (ofState d).state.backends ∧
      ofState (ofState d).state = ofState d := by
  refine ⟨rfl, ?_, ?_⟩
  · refine List.forall₂_map_right_iff.mpr (List.forall₂_same.mpr fun b _ => ⟨rfl, ?_⟩)
    exact areNamed_nameServers b.servers
  · have htwice (b : Backend) : b.named.named = b.named :=
      congrArg (fun servers => { b with servers })
        (nameServers_of_named (areNamed_nameServers b.servers).filled)
    have hbackends : (d.backends.map Backend.named).map Backend.named = d.backends.map Backend.named :=
      List.map_map.trans (List.map_congr_left fun b _ => htwice b)
    exact congrArg (fun backends => ({ state := { d with backends } } : Generation)) hbackends

end Generation

end Rollout
