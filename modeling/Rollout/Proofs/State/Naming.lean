import Rollout.Proofs.Generation.Sound

/-!
# Proofs/State/Naming — when the named servers of a backend are sound

Naming goes through the servers in list order, and each generated name avoids those of the servers before
and after it.  Whether the result is sound does not depend on that order: a generated name is sound and
never taken, so the names come out distinct exactly if those that were given are (`nodup_nameServers_iff`),
and what is left to ask is about each server by itself (`Backend.sound_named_iff`).
-/

namespace Rollout

/-- The names that were given to servers. -/
def givenNames (servers : List Server) : List String :=
  (servers.map (·.name)).filter fun name => !name.isEmpty

theorem givenNames_cons_of_empty {s : Server} (h : s.name.isEmpty = true) (rest : List Server) :
    givenNames (s :: rest) = givenNames rest := by
  simp [givenNames, h]

theorem givenNames_cons_of_given {s : Server} (h : ¬ s.name.isEmpty = true) (rest : List Server) :
    givenNames (s :: rest) = s.name :: givenNames rest := by
  simp [givenNames, h]

theorem givenNames_sublist (servers : List Server) :
    (givenNames servers).Sublist (servers.map (·.name)) := List.filter_sublist

/-- The order of the servers does not decide which names were given. -/
theorem givenNames_perm {servers servers' : List Server} (h : servers.Perm servers') :
    (givenNames servers).Perm (givenNames servers') :=
  (h.map _).filter _

/-- A generated name is neither one of those before it nor one of those given after it. -/
theorem freshName_apart (named : List Server) (s : Server) (rest : List Server) :
    freshName ((named ++ s :: rest).map (·.name)) ∉ named.map (·.name) ++ givenNames rest := by
  refine fun hmem => freshName_not_mem ((named ++ s :: rest).map (·.name)) ?_
  refine List.Sublist.subset ?_ hmem
  rw [List.map_append, List.map_cons]
  exact (List.Sublist.refl _).append ((givenNames_sublist rest).cons _)

/-- **Naming keeps names distinct that were given distinct**, and only those. -/
theorem nodup_nameServers_iff : ∀ {rest named : List Server},
    ((nameServers named rest).map (·.name)).Nodup ↔
      (named.map (·.name) ++ givenNames rest).Nodup
  | [], named => by simp [nameServers, givenNames]
  | s :: rest, named => by
      rw [nameServers, nodup_nameServers_iff, List.map_append, List.append_assoc]
      by_cases hname : s.name.isEmpty = true
      · rw [if_pos hname, givenNames_cons_of_empty hname]
        refine List.perm_middle.nodup_iff.trans (List.nodup_cons.trans ⟨And.right, fun h => ?_⟩)
        exact ⟨freshName_apart named s rest, h⟩
      · rw [if_neg hname, givenNames_cons_of_given hname]
        rfl

/-! ## Sound once named -/

/-- **A server that is sound once it has a name.** -/
structure Server.Nameable (s : Server) : Prop where
  name : s.name = "" ∨ SoundName s.name
  port : s.enabled = true → s.port ≠ 0
  address : s.enabled = true → (Address.parse s.ip).isSome = true

/-- A name that was not given is generated, and sound. -/
theorem Server.sound_rename_iff {s : Server} (h : s.name.isEmpty = true) (used : List String) :
    ({ s with name := freshName used } : Server).Sound ↔ s.Nameable := by
  obtain ⟨n, hn⟩ := exists_freshName_eq used
  rw [hn]
  exact ⟨fun hs => ⟨Or.inl (String.isEmpty_iff.mp h), hs.port, hs.address⟩,
    fun hs => ⟨soundName_serverName n, hs.port, hs.address⟩⟩

theorem Server.sound_iff_nameable {s : Server} (h : ¬ s.name.isEmpty = true) :
    s.Sound ↔ s.Nameable :=
  ⟨fun hs => ⟨Or.inr hs.name, hs.port, hs.address⟩,
    fun hs => ⟨hs.name.resolve_left fun he => h (String.isEmpty_iff.mpr he), hs.port, hs.address⟩⟩

theorem forall_sound_nameServers_iff : ∀ {rest named : List Server},
    (∀ s ∈ nameServers named rest, s.Sound) ↔
      (∀ s ∈ named, s.Sound) ∧ ∀ s ∈ rest, s.Nameable
  | [], named => by simp [nameServers]
  | s :: rest, named => by
      rw [nameServers, forall_sound_nameServers_iff, List.forall_mem_append, List.forall_mem_singleton,
        List.forall_mem_cons, and_assoc]
      by_cases hname : s.name.isEmpty = true
      · rw [if_pos hname, Server.sound_rename_iff hname]
      · rw [if_neg hname, Server.sound_iff_nameable hname]

/-- **When a backend is sound once its servers are named.** -/
theorem Backend.sound_named_iff {b : Backend} : b.named.Sound ↔
    SoundName b.id ∧ (∀ s ∈ b.servers, s.Nameable) ∧ (givenNames b.servers).Nodup := by
  rw [sound_iff, named, forall_sound_nameServers_iff, nodup_nameServers_iff]
  simp

@[simp] theorem Backend.id_named (b : Backend) : b.named.id = b.id := rfl

end Rollout
