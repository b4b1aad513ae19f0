import Rollout.Proofs.Cycle.Honest

/-!
# Proofs/Cycle/Relist — the same service from other server lists

Between building and rotating, a cycle pads a generation, moves its servers to the slots of the
running process or orders them.  All of these list the servers of each backend in another way and
touch nothing else (`Generation.Relists`), so the generation that was asked for still serves the
same as the one that is left behind (`Relists.serves`).
-/

namespace Rollout

variable {s : CycleSettings} {increment : Nat}

theorem Backend.sameSettings_iff {b c : Backend} :
    b.sameSettings c = true ↔ b.id = c.id ∧ b.mode = c.mode ∧ b.balance = c.balance := by
  simp [sameSettings, and_assoc]

/-- Other servers leave the settings of a backend alone. -/
theorem Backend.sameSettings_withServers (b : Backend) (servers : List Server) :
    b.sameSettings { b with servers } = true := sameSettings_iff.mpr ⟨rfl, rfl, rfl⟩

/-- **One generation lists the servers of another in its own way**: the routing is the same, and
backend by backend so are the settings and the live servers. -/
structure Generation.Relists (g h : Generation) : Prop where
  routing : g.sameRouting h = true
  backends : List.Forall₂ (fun b x => b.sameSettings x = true ∧ b.live.Perm x.live)
    g.backends h.backends

namespace Generation.Relists

variable {g h : Generation}

theorem refl (g : Generation) : g.Relists g where
  routing := sameRouting_iff.mpr ⟨rfl, rfl, rfl, rfl, rfl⟩
  backends := List.forall₂_same.mpr fun b _ => ⟨b.sameSettings_withServers b.servers, .refl _⟩

/-- **Every backend may be listed in yet another way.** -/
theorem mapBackends (hgh : g.Relists h) {k : Backend → Backend}
    (hsettings : ∀ b : Backend, b.sameSettings (k b) = true)
    (hlive : ∀ b : Backend, b.live.Perm (k b).live) : g.Relists (h.mapBackends k) where
  routing := hgh.routing
  backends := List.forall₂_map_right_iff.mpr <| hgh.backends.imp fun b x ⟨hbx, hperm⟩ => by
    obtain ⟨hid, hmode, hbalance⟩ := Backend.sameSettings_iff.mp hbx
    obtain ⟨hid', hmode', hbalance'⟩ := Backend.sameSettings_iff.mp (hsettings x)
    exact ⟨Backend.sameSettings_iff.mpr
      ⟨hid.trans hid', hmode.trans hmode', hbalance.trans hbalance'⟩, hperm.trans (hlive x)⟩

/-- Padding adds slots only. -/
theorem pad (hgh : g.Relists h) (k : Nat) : g.Relists (h.mapBackends (Backend.pad k)) := by
  refine hgh.mapBackends (fun b => ?_) fun b => ?_
  · rw [Backend.pad]
    split_ifs
    · exact b.sameSettings_withServers b.servers
    · exact b.sameSettings_withServers _
  · exact .of_eq (congrArg (List.map Server.live) (b.enabledServers_pad k)).symm

/-- Ordering moves servers only. -/
theorem arrange (hgh : g.Relists h) (s : CycleSettings) : g.Relists (s.arrange h) := by
  rw [CycleSettings.arrange]
  split_ifs
  · exact hgh.mapBackends (fun b => b.sameSettings_withServers _)
      fun b => (b.enabledServers_sortServers_perm.map Server.live).symm
  · exact hgh

/-- **A generation serves the same as every built one that relists it.** -/
theorem serves (hgh : g.Relists h) (hh : h.IsBuilt) : g.serves h = true := by
  refine serves_iff.mpr ⟨hgh.routing, hgh.backends.length_eq, fun b hb => ?_⟩
  obtain ⟨x, hx, hsettings, hlive⟩ := forall₂_mem_left hgh.backends b hb
  have hid : b.id = x.id := (Backend.sameSettings_iff.mp hsettings).1
  exact ⟨x, hh.backend?_eq_some_iff.mpr ⟨hx, hid.symm⟩, hsettings, hlive⟩

end Generation.Relists

/-- **A patched generation relists the one that was to be patched in.** -/
theorem Planned.relists {old current : Generation} {plans : List BackendPlan}
    (h : Planned old current plans) : current.Relists (adoptPlans plans current) where
  routing := by
    rw [h.adoptPlans_eq]
    exact (Generation.Relists.refl current).routing
  backends := h.forall₂_patched.imp fun b x => by
    rintro ⟨p, -, ⟨o, -, -, hspec⟩, rfl⟩
    exact ⟨b.sameSettings_withServers p.servers, hspec.live.symm⟩

/-- **An attempt to patch relists the generation**, however it ends. -/
theorem Attempt.relists {channel : Option Answers} {previous : Option Generation}
    {built : Generation} {w : World} {r : (PatchResult × Generation) × World}
    (h : Attempt channel increment previous built w r)
    (hprevious : ∀ old, previous = some old → old.Honest) (hbuilt : built.IsBuilt) :
    built.Relists r.1.2 := by
  cases h with
  | applied old plans before planned =>
    exact (planned_of_honest (hprevious old before) hbuilt planned).relists
  | refused | silent => exact (Generation.Relists.refl built).pad increment

end Rollout
