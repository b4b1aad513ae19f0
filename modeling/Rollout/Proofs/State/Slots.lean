import Mathlib.Data.List.Nodup
import Mathlib.Data.List.Perm.Subperm
import Mathlib.Order.Bounds.Basic
import Rollout.Proofs.Text.Number

/-!
# Proofs/State/Slots — what naming and padding add to a server list

The search for a free name ends at the first one (`freshNameFrom_spec`), because the names it
passes over are distinct and all used (`freshName_not_mem`).  Padding appends slots under such names
(`servers_pad`), so it keeps the enabled servers as they are; sorting permutes the list.
-/

namespace Rollout

/-! ## The search for a name -/

/-- **The search passes over used names only**, and ends early only at a free one. -/
theorem freshNameFrom_spec (used : List String) : ∀ fuel n : Nat, ∃ k ≤ fuel,
    freshNameFrom used fuel n = serverName (n + k) ∧ (∀ j < k, serverName (n + j) ∈ used) ∧
      (k < fuel → serverName (n + k) ∉ used)
  | 0, n => ⟨0, Nat.le_refl 0, rfl, fun _ h => absurd h (Nat.not_lt_zero _),
      fun h => absurd h (Nat.lt_irrefl 0)⟩
  | fuel + 1, n => by
      rw [freshNameFrom]
      by_cases h : used.contains (serverName n)
      · obtain ⟨k, hk, heq, hpassed, hfree⟩ := freshNameFrom_spec used fuel (n + 1)
        rw [Nat.add_right_comm, Nat.add_assoc] at heq hfree
        refine ⟨k + 1, Nat.succ_le_succ hk, by rw [if_pos h, heq], fun j hj => ?_,
          fun h' => hfree (Nat.lt_of_succ_lt_succ h')⟩
        cases j with
        | zero => exact List.contains_iff_mem.mp h
        | succ j =>
          have := hpassed j (Nat.lt_of_succ_lt_succ hj)
          rwa [Nat.add_right_comm, Nat.add_assoc] at this
      · refine ⟨0, Nat.zero_le _, if_neg h, fun _ h' => absurd h' (Nat.not_lt_zero _), ?_⟩
        exact fun _ h' => h (List.contains_iff_mem.mpr h')

/-- Some number's name is found. -/
theorem exists_freshName_eq (used : List String) : ∃ n, freshName used = serverName n :=
  let ⟨k, _, h, _⟩ := freshNameFrom_spec used used.length 1
  ⟨1 + k, h⟩

/-- **The name that is found is free** — the names before it are distinct, so they cannot be more
than the used ones. -/
theorem freshName_not_mem (used : List String) : freshName used ∉ used := by
  obtain ⟨k, hk, heq, hpassed, hfree⟩ := freshNameFrom_spec used used.length 1
  rw [freshName, heq]
  rcases Nat.lt_or_eq_of_le hk with hlt | rfl
  · exact hfree hlt
  intro hlast
  have hnodup : ((List.range (used.length + 1)).map fun j => serverName (1 + j)).Nodup :=
    List.nodup_range.map fun i j h => Nat.add_left_cancel (serverName_injective h)
  have hsub : ((List.range (used.length + 1)).map fun j => serverName (1 + j)) ⊆ used := by
    intro s hs
    obtain ⟨j, hj, rfl⟩ := List.mem_map.mp hs
    rcases Nat.lt_or_eq_of_le (Nat.le_of_lt_succ (List.mem_range.mp hj)) with hlt | rfl
    · exact hpassed j hlt
    · exact hlast
  have hlen := (List.Nodup.subperm hnodup hsub).length_le
  rw [List.length_map, List.length_range] at hlen
  omega

/-- **The least number whose name is free is found**, and at most as many numbers as there are used names
lie below it. -/
theorem freshName_isLeast (used : List String) : ∃ n ≤ used.length + 1,
    freshName used = serverName n ∧ IsLeast {m | 0 < m ∧ serverName m ∉ used} n := by
  obtain ⟨k, hk, heq, hpassed, -⟩ := freshNameFrom_spec used used.length 1
  refine ⟨1 + k, by omega, heq, ⟨by omega, heq ▸ freshName_not_mem used⟩, ?_⟩
  rintro m ⟨hpos, hfree⟩
  by_contra hlt
  refine hfree ?_
  have := hpassed (m - 1) (by omega)
  rwa [Nat.add_sub_cancel' hpos] at this

/-! ## Padding -/

section

variable {k : Nat} (hk : 0 < k) (n : Nat)
include hk

theorem le_roundUp : n ≤ roundUp k n := by
  rw [roundUp]
  split_ifs with hn
  · exact hn ▸ Nat.zero_le k
  · have hlt : (n + k - 1) % k < k := Nat.mod_lt _ hk
    have hdiv : (n + k - 1) / k * k + (n + k - 1) % k = n + k - 1 := Nat.div_add_mod' _ _
    omega

theorem roundUp_pos : 0 < roundUp k n := by
  rcases Nat.eq_zero_or_pos n with rfl | hn
  · exact (if_pos rfl : roundUp k 0 = k).symm ▸ hk
  · exact Nat.lt_of_lt_of_le hn (le_roundUp hk n)

end

theorem dvd_roundUp (k n : Nat) : k ∣ roundUp k n := by
  rw [roundUp]
  split_ifs
  · exact Nat.dvd_refl k
  · exact Nat.dvd_mul_left k _

/-- The names that `missing` new slots take, one after the other. -/
def slotNames (used : List String) : (missing : Nat) → List String
  | 0 => []
  | missing + 1 => freshName used :: slotNames (used ++ [freshName used]) missing

@[simp] theorem length_slotNames : ∀ (missing : Nat) (used : List String),
    (slotNames used missing).length = missing
  | 0, _ => rfl
  | missing + 1, used => congrArg (· + 1) (length_slotNames missing (used ++ [freshName used]))

/-- Every slot takes a generated name. -/
theorem exists_of_mem_slotNames : ∀ {missing : Nat} {used : List String} {s : String},
    s ∈ slotNames used missing → ∃ n, s = serverName n
  | missing + 1, used, s, h => by
      rcases List.mem_cons.mp h with rfl | h
      · exact exists_freshName_eq used
      · exact exists_of_mem_slotNames h

/-- **The names of new slots are new and distinct.** -/
theorem nodup_append_slotNames : ∀ (missing : Nat) {used : List String},
    used.Nodup → (used ++ slotNames used missing).Nodup
  | 0, used, h => by rwa [slotNames, List.append_nil]
  | missing + 1, used, h => by
      have hone : (used ++ [freshName used]).Nodup :=
        List.nodup_append.mpr ⟨h, List.nodup_singleton _, fun a ha b hb => by
          rw [List.mem_singleton.mp hb]
          rintro rfl
          exact freshName_not_mem used ha⟩
      rw [slotNames, List.append_cons]
      exact nodup_append_slotNames missing hone

theorem appendSlots_eq : ∀ (missing : Nat) (servers : List Server),
    appendSlots servers missing
      = servers ++ (slotNames (servers.map (·.name)) missing).map Server.emptySlot
  | 0, servers => (List.append_nil servers).symm
  | missing + 1, servers => by
      rw [appendSlots, appendSlots_eq missing, List.map_append, List.append_assoc]
      rfl

namespace Backend

variable (b : Backend) (k : Nat)

/-- How many slots padding adds. -/
def missingSlots : Nat := if k = 0 then 0 else roundUp k b.servers.length - b.servers.length

/-- **Padding appends empty slots under new names.** -/
theorem servers_pad : (b.pad k).servers = b.servers
    ++ (slotNames (b.servers.map (·.name)) (b.missingSlots k)).map Server.emptySlot := by
  rw [pad, missingSlots]
  split_ifs with h
  · exact (List.append_nil _).symm
  · exact appendSlots_eq _ _

@[simp] theorem id_pad : (b.pad k).id = b.id := by rw [pad]; split_ifs <;> rfl

/-- The names after padding: those before, then those of the slots. -/
theorem names_pad : (b.pad k).servers.map (·.name)
    = b.servers.map (·.name) ++ slotNames (b.servers.map (·.name)) (b.missingSlots k) := by
  rw [servers_pad, List.map_append, List.map_map]
  exact congrArg _ (List.map_id _)

/-- **Padding rounds the number of servers up.** -/
theorem length_pad (hk : 0 < k) : (b.pad k).servers.length = roundUp k b.servers.length := by
  rw [servers_pad, List.length_append, List.length_map, length_slotNames, missingSlots,
    if_neg (Nat.ne_of_gt hk)]
  exact Nat.add_sub_cancel' (le_roundUp hk _)

/-- Empty slots take no traffic. -/
@[simp] theorem enabledServers_pad : (b.pad k).enabledServers = b.enabledServers := by
  rw [enabledServers, servers_pad, List.filter_append, List.filter_map]
  have : (slotNames (b.servers.map (·.name)) (b.missingSlots k)).filter
      ((·.enabled) ∘ Server.emptySlot) = [] := List.filter_eq_nil_iff.mpr fun _ _ => nofun
  rw [this]
  exact List.append_nil _

/-! ## Sorting -/

/-- **Sorting permutes the servers.** -/
theorem servers_sortServers_perm : b.sortServers.servers.Perm b.servers := List.mergeSort_perm _ _

@[simp] theorem id_sortServers : b.sortServers.id = b.id := rfl

theorem enabledServers_sortServers_perm : b.sortServers.enabledServers.Perm b.enabledServers :=
  b.servers_sortServers_perm.filter _

end Backend

end Rollout
