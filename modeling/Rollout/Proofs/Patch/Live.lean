import Rollout.Proofs.World

/-!
# Proofs/Patch/Live — a live patch leads to the patched generation

A plan is two things at once, a stream of commands and a list of servers for every backend.
`Planned.shows` says that they agree: whatever table serves the old generation, the commands turn it
into one that serves the patched generation.
-/

namespace Rollout

/-- A key is in the table of a generation when one of its backends has a server of that name. -/
theorem Generation.mem_map_key_table {g : Generation} {k : String × String} :
    k ∈ g.table.map RunningServer.key ↔
      ∃ b ∈ g.backends, b.id = k.1 ∧ k.2 ∈ b.servers.map (·.name) := by
  rw [map_key_table, List.mem_flatMap]
  refine exists_congr fun b => and_congr_right fun _ => ?_
  rw [List.mem_map, List.mem_map]
  constructor
  · rintro ⟨s, hs, rfl⟩
    exact ⟨rfl, s, hs, rfl⟩
  · rintro ⟨hid, s, hs, hname⟩
    exact ⟨s, hs, Prod.ext hid hname⟩

namespace Planned

variable {old current : Generation} {plans : List BackendPlan}

/-- **A live patch neither adds nor removes a server.** -/
theorem keys_perm (h : Planned old current plans) :
    (old.table.map RunningServer.key).Perm
      ((adoptPlans plans current).table.map RunningServer.key) := by
  refine (List.perm_ext_iff_of_nodup h.builtOld.nodup_keys h.isBuilt_adoptPlans.nodup_keys).mpr
    fun k => ?_
  rw [Generation.mem_map_key_table, Generation.mem_map_key_table]
  constructor
  · rintro ⟨o, ho, hid, hname⟩
    obtain ⟨b, hb, p, hp, hob, hspec, hx⟩ := h.exists_plan ho
    refine ⟨_, hx, hob.symm.trans hid, ?_⟩
    rwa [hspec.changes.names_eq]
  · rintro ⟨x, hx, hid, hname⟩
    obtain ⟨b, hb, p, hp, ⟨o, ho, hob, hspec⟩, rfl⟩ := forall₂_mem_right h.forall₂_patched x hx
    refine ⟨o, ho, hob.trans hid, ?_⟩
    rwa [← hspec.changes.names_eq]

/-- **The commands of a plan bring the proxy to the patched generation.** -/
theorem shows (h : Planned old current plans) {t : ServerTable} (ht : t.Shows old) :
    (runCommands (planCommands plans) t).Shows (adoptPlans plans current) := by
  refine .of_exists_runs ?_ fun x hx s' hs' => ?_
  · rw [map_key_runCommands]
    exact ht.servers.trans h.keys_perm
  · obtain ⟨b, hb, p, hp, ⟨o, ho, hob, hspec⟩, rfl⟩ := forall₂_mem_right h.forall₂_patched x hx
    obtain ⟨s, hs, hchange⟩ := forall₂_mem_right (h.changes hp hspec) s' hs'
    obtain ⟨r, hr, hruns⟩ := ht.exists_runs ho hs
    refine ⟨r.after (r.actionsIn (planCommands plans)), ?_, ?_⟩
    · rw [runCommands_eq_map]
      exact List.mem_map_of_mem hr
    · rw [hruns.actionsIn_eq, hob]
      exact hchange.runs_after (hob ▸ hruns)

end Planned

/-- **A live patch is sound.**  If patching from one built generation to another ends without a
reload, the lines that were sent turn the table of the old generation into one that serves the
patched generation.  Each backend of that has the names of the old one, in order, and the enabled
servers that the new one asked for. -/
theorem live_patch_sound {old current patched : Generation} {answers : Answers} {increment n : Nat}
    {w w' : World} (hold : old.IsBuilt) (hcurrent : current.IsBuilt)
    (happlied : patch (some (World.send answers)) increment (some old) current w
      = ((.applied n, patched), w')) :
    ∃ lines : List String, lines.length = n ∧ w'.calls = w.calls ++ lines.map Call.send ∧
      (old.table.obeyAll lines).Shows patched ∧
      List.Forall₂ (fun b x => ∃ o, old.backend? b.id = some o ∧ x.id = b.id ∧
        x.servers.map (·.name) = o.servers.map (·.name) ∧ x.live.Perm b.live)
        current.backends patched.backends := by
  have hplanned : ∀ old' plans, some old = some old' → planPatch old' current = some plans →
      Planned old' current plans := by
    rintro _ plans ⟨⟩ hplan
    exact ⟨hold, hcurrent, hplan⟩
  have hattempt : Attempt (some answers) increment (some old) current w
      (patch (some (World.send answers)) increment (some old) current w) :=
    patch_spec fun old' plans heq hplan => (hplanned old' plans heq hplan).isPlain
  rw [happlied] at hattempt
  cases hattempt with
  | applied old' plans heq hplan =>
    have h := hplanned old' plans heq hplan
    obtain rfl := Option.some.inj heq
    refine ⟨(planCommands plans).map ServerCommand.text, List.length_map _, ?_, ?_, ?_⟩
    · rw [List.map_map]
      rfl
    · rw [ServerTable.obeyAll_text _ h.isPlain]
      exact h.shows (.table old)
    · refine h.forall₂_patched.imp fun b x => ?_
      rintro ⟨p, -, ⟨o, ho, hob, hspec⟩, rfl⟩
      exact ⟨o, hold.backend?_eq_some_iff.mpr ⟨ho, hob⟩, rfl, hspec.changes.names_eq, hspec.live⟩

/-- A built generation of a single backend. -/
def Generation.ofServers (servers : List Server) : Generation :=
  Generation.buildBackends (Generation.buildFrontends
    { state := { backends := [{ id := "app", servers }] } }).2 |>.2

/-- Two servers and a slot. -/
def beforeRollout : Generation := .ofServers [
  { name := "srv001", ip := "10.0.0.1", port := 80 },
  { name := "srv002", ip := "10.0.0.2", port := 80 },
  Server.emptySlot "srv003"]

/-- One server heavier, one replaced. -/
def afterRollout : Generation := .ofServers [
  { name := "srv001", ip := "10.0.0.3", port := 80 },
  { name := "srv002", ip := "10.0.0.1", port := 80, weight := 2 }]

/-- A weight, a server that goes and one that takes over its slot: five lines. -/
theorem live_patch_sound_rollout :
    let final := patch (some (World.send fun _ _ => .ok "")) 4 (some beforeRollout) afterRollout
      { servers := beforeRollout.table }
    ∃ lines : List String, lines.length = 5 ∧ final.2.calls = [] ++ lines.map Call.send ∧
      (beforeRollout.table.obeyAll lines).Shows final.1.2 ∧
      List.Forall₂ (fun b x => ∃ o, beforeRollout.backend? b.id = some o ∧ x.id = b.id ∧
        x.servers.map (·.name) = o.servers.map (·.name) ∧ x.live.Perm b.live)
        afterRollout.backends final.1.2.backends :=
  live_patch_sound ⟨by decide +kernel, by decide +kernel⟩ ⟨by decide +kernel, by decide +kernel⟩
    (Prod.ext (Prod.ext (by decide +kernel) rfl) rfl)

end Rollout
