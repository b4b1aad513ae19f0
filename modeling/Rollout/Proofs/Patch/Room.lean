import Rollout.Proofs.Patch.Live
import Rollout.Proofs.Patch.Settled

/-!
# Proofs/Patch/Room — when there is a plan

Two loops have to end well for a plan: every wanted server is matched at most once, and each one left
over finds a slot.  It does not matter which servers are matched: one that is takes up the slot it
stands in, one that is not takes up a free one, so a plan exists exactly when the running backend has
as many servers as are wanted (`isSome_planBackend_iff`).
-/

namespace Rollout

/-! ## Slots to fill -/

section Occupy

variable {backend : String}

/-- Releasing keeps one slot for every server. -/
theorem length_running_release {running wanted : List Server} :
    (release backend running wanted).running.length = running.length := by
  fun_induction release backend running wanted with
  | case1 => rfl
  | case2 _ _ _ _ _ _ _ _ ih | case3 _ _ _ _ _ _ _ _ ih | case4 _ _ _ _ _ _ ih
  | case5 _ _ _ _ _ ih => exact congrArg (· + 1) ih

theorem length_liveServers_le (servers : List Server) :
    (liveServers servers).length ≤ servers.length := by
  rw [List.length_map]
  exact List.length_filter_le ..

/-- **A slot is found exactly if not every server takes traffic.** -/
theorem isSome_occupySlot_iff (w : Server) : ∀ (running : List Server),
    (occupySlot w running).isSome = true ↔ (liveServers running).length < running.length
  | [] => by simp [occupySlot]
  | t :: rest => by
      cases ht : t.enabled with
      | false =>
        rw [occupySlot, if_pos (by rw [Server.isSlot, ht]; rfl), liveServers_cons_of_disabled ht]
        exact iff_of_true rfl (Nat.lt_succ_of_le (length_liveServers_le rest))
      | true =>
        rw [occupySlot, if_neg (by rw [Server.isSlot, ht]; decide), Option.isSome_map,
          isSome_occupySlot_iff w rest, liveServers_cons_of_enabled ht, List.length_cons,
          List.length_cons, Nat.add_lt_add_iff_right]

/-- **Slots are found for a list of servers exactly if they fit in**, next to those that run. -/
theorem isSome_occupySlots_iff : ∀ {wanted running : List Server},
    (occupySlots backend wanted running).isSome = true ↔
      wanted.length + (liveServers running).length ≤ running.length
  | [], running => by
      rw [List.length_nil, Nat.zero_add]
      exact iff_of_true rfl (length_liveServers_le running)
  | s :: rest, running => by
      have hone := isSome_occupySlot_iff s running
      cases hslot : occupySlot s running with
      | none =>
        rw [hslot] at hone
        rw [occupySlots, hslot, List.length_cons]
        exact iff_of_false Bool.false_ne_true fun h => Bool.false_ne_true (hone.mpr (by omega))
      | some r =>
        obtain ⟨slot, running'⟩ := r
        obtain ⟨-, hnames, hlive⟩ := occupySlot_spec hslot
        have hlength : running'.length = running.length := by
          simpa using congrArg List.length hnames
        have hmore : (liveServers running').length = (liveServers running).length + 1 :=
          hlive.length_eq
        rw [occupySlots, hslot, List.length_cons]
        simp only [Option.isSome_map, isSome_occupySlots_iff, hlength, hmore]
        omega

end Occupy

/-! ## Plans -/

/-- **A backend has a plan exactly if its servers fit into the old one**, no two of them at one
place. -/
theorem isSome_planBackend_iff {o b : Backend} : (planBackend o b).isSome = true ↔
    (b.enabledServers.map Server.place).Nodup ∧ b.enabledServers.length ≤ o.servers.length := by
  -- What is matched takes up a slot of its own, what is not will: together as many as are wanted.
  let r := release b.id o.servers b.enabledServers
  have hslots : r.running.length = o.servers.length := length_running_release
  have hwanted : r.wanted.length + (liveServers r.running).length = b.enabledServers.length := by
    have hperm : (liveServers r.running ++ r.wanted.map Server.live).Perm b.live :=
      live_release_perm
    simpa [Nat.add_comm, Backend.live] using hperm.length_eq
  have hfilled : (occupySlots b.id r.wanted r.running).isSome = true ↔
      b.enabledServers.length ≤ o.servers.length := by
    rw [isSome_occupySlots_iff, hwanted, hslots]
  rw [planBackend]
  split_ifs with hplaces
  · rw [Option.isSome_map, hfilled]
    exact (and_iff_right hplaces).symm
  · exact iff_of_false Bool.false_ne_true fun h => hplaces h.1

namespace Generation

/-- **The servers of a generation fit into those of an old one**: in every backend no two enabled
servers share a target, and they are no more than all servers, enabled or not, that the old backend
of that id has. -/
def FitsInto (current old : Generation) : Prop :=
  ∀ b ∈ current.backends, (b.enabledServers.map Server.target).Nodup ∧
    ∀ o ∈ old.backends, o.id = b.id → b.enabledServers.length ≤ o.servers.length

instance (current old : Generation) : Decidable (current.FitsInto old) :=
  inferInstanceAs (Decidable (∀ b ∈ current.backends, _ ∧ ∀ o ∈ old.backends, _ → _))

end Generation

/-- **Between generations that differ in servers only, there is a plan exactly if these fit.** -/
theorem isSome_planPatch_iff {old current : Generation} (hold : old.IsBuilt)
    (hrouting : current.sameRouting old = true) (hids : sameBackendIds old current = true)
    (hsettings : ∀ b ∈ current.backends, ∀ o ∈ old.backends, o.id = b.id →
      b.sameSettings o = true) :
    (planPatch old current).isSome = true ↔ current.FitsInto old := by
  rw [Option.isSome_iff_exists]
  constructor
  · rintro ⟨plans, hplan⟩ b hb
    obtain ⟨-, -, hplans⟩ := planPatch_eq_some_iff.mp hplan
    obtain ⟨p, -, o, ho, -, hp⟩ := forall₂_mem_left hplans b hb
    obtain ⟨hplaces, hroom⟩ := isSome_planBackend_iff.mp (Option.isSome_iff_exists.mpr ⟨p, hp⟩)
    refine ⟨nodup_target_iff.mpr hplaces, fun o' ho' hid => ?_⟩
    obtain rfl := Option.some.inj (ho.symm.trans (hold.backend?_eq_some_iff.mpr ⟨ho', hid⟩))
    exact hroom
  · intro hfits
    obtain ⟨plans, hplans⟩ : ∃ plans, List.Forall₂ (fun b p => ∃ o, old.backend? b.id = some o ∧
        b.sameSettings o = true ∧ planBackend o b = some p) current.backends plans := by
      refine exists_forall₂ fun b hb => ?_
      obtain ⟨o, ho, hid⟩ := (sameBackendIds_iff.mp hids).2 b hb
      obtain ⟨htargets, hroom⟩ := hfits b hb
      obtain ⟨p, hp⟩ := Option.isSome_iff_exists.mp
        (isSome_planBackend_iff.mpr ⟨nodup_target_iff.mp htargets, hroom o ho hid⟩)
      exact ⟨p, o, hold.backend?_eq_some_iff.mpr ⟨ho, hid⟩, hsettings b hb o ho hid, hp⟩
    exact ⟨plans, planPatch_eq_some_iff.mpr ⟨hrouting, hids, hplans⟩⟩

/-! ## Attempts -/

/-- A channel that accepts everything takes all commands. -/
theorem sendAll_of_accepting {answers : Answers}
    (haccepts : ∀ calls line, ∃ reply, answers calls line = .ok reply) :
    ∀ (cs : List ServerCommand) (w : World),
      (sendAll (World.send answers) cs w).1 = (cs.length, none)
  | [], _ => rfl
  | c :: cs, w => by
      obtain ⟨reply, hreply⟩ := haccepts w.calls c.text
      rw [sendAll_cons_of_ok hreply]
      simp only [sendAll_of_accepting haccepts cs, List.length_cons]

/-- **A live patch succeeds exactly when it can.**  Take two generations, the old one built, of the
same routing, with the same backends and settings, and a channel that accepts everything.  Patching
ends without a reload exactly if the servers of the new generation fit into those of the old one.
Otherwise it asks for a reload, and nothing has been sent. -/
theorem live_patch_applied_iff_fits {old current : Generation} (hold : old.IsBuilt)
    (hrouting : current.sameRouting old = true) (hids : sameBackendIds old current = true)
    (hsettings : ∀ b ∈ current.backends, ∀ o ∈ old.backends, o.id = b.id →
      b.sameSettings o = true)
    {answers : Answers} (haccepts : ∀ calls line, ∃ reply, answers calls line = .ok reply)
    (increment : Nat) (w : World) :
    let r := patch (some (World.send answers)) increment (some old) current w
    ((∃ n, r.1.1 = .applied n) ↔ current.FitsInto old) ∧
      (¬current.FitsInto old → r.1.1 = .reloadRequired 0 ∧ r.2 = w) := by
  intro r
  rw [← isSome_planPatch_iff hold hrouting hids hsettings]
  cases hplan : planPatch old current with
  | none =>
    have hr : r = ((.reloadRequired 0, current.mapBackends (Backend.pad increment)), w) :=
      patch_of_no_plan (some answers) hplan
    rw [hr]
    exact ⟨iff_of_false (fun ⟨_, h⟩ => nomatch h) Bool.false_ne_true, fun _ => ⟨rfl, rfl⟩⟩
  | some plans =>
    have hsent := sendAll_of_accepting haccepts (planCommands plans) w
    have hr : r = _ := patch_of_channel answers hplan
    rcases hrun : sendAll (World.send answers) (planCommands plans) w with ⟨sent, w'⟩
    rw [hrun] at hsent hr
    obtain rfl : sent = _ := hsent
    rw [hr]
    exact ⟨iff_of_true ⟨_, rfl⟩ rfl, fun h => absurd rfl h⟩

/-- Three servers, as many as `beforeRollout` has with its slot. -/
def fullRollout : Generation := .ofServers [
  { name := "a", ip := "10.0.0.1", port := 80 },
  { name := "b", ip := "10.0.0.3", port := 80 },
  { name := "c", ip := "10.0.0.4", port := 80 }]

/-- One server more. -/
def overfullRollout : Generation := .ofServers [
  { name := "a", ip := "10.0.0.1", port := 80 },
  { name := "b", ip := "10.0.0.3", port := 80 },
  { name := "c", ip := "10.0.0.4", port := 80 },
  { name := "d", ip := "10.0.0.5", port := 80 }]

/-- Three servers fit into two and a slot, four do not. -/
theorem live_patch_applied_iff_fits_full :
    let accepting : Answers := fun _ _ => .ok ""
    (∃ n, (patch (some (World.send accepting)) 4 (some beforeRollout) fullRollout {}).1.1
      = .applied n) ∧
    (patch (some (World.send accepting)) 4 (some beforeRollout) overfullRollout {}).1.1
      = .reloadRequired 0 ∧
    (patch (some (World.send accepting)) 4 (some beforeRollout) overfullRollout {}).2 = {} :=
  have hbefore : beforeRollout.IsBuilt := ⟨by decide +kernel, by decide +kernel⟩
  ⟨(live_patch_applied_iff_fits hbefore (by decide +kernel) (by decide +kernel)
      (by decide +kernel) (fun _ _ => ⟨"", rfl⟩) 4 {}).1.mpr (by decide +kernel),
    (live_patch_applied_iff_fits hbefore (by decide +kernel) (by decide +kernel)
      (by decide +kernel) (fun _ _ => ⟨"", rfl⟩) 4 {}).2 (by decide +kernel)⟩

end Rollout
