import Mathlib.Data.List.Nodup
import Rollout.Generation.Compare
import Rollout.Proofs.Generation.Sound
import Rollout.Proofs.Patch.Change
import Rollout.Proofs.Patch.Line

/-!
# Proofs/Patch/Table — the servers of the running proxy

A `ServerTable` has a row for each server the proxy runs, and a command acts on the row it names.
Rows do not interact: after a stream of commands each has undergone the actions sent to it
(`runCommands_eq_map`).

`Generation.table` is the table that a generation describes, the one the proxy starts with after a
reload.  A table `Shows` a generation when it serves the same: exactly the servers of the
generation, the enabled ones ready with their address and weight, the disabled ones in maintenance.
-/

namespace Rollout

/-- **One server of the running proxy.** -/
structure RunningServer where
  backend : String
  name : String
  ip : String
  port : UInt16
  weight : UInt32
  /-- Does the server take traffic?  Otherwise it is in maintenance. -/
  ready : Bool
  deriving DecidableEq, Repr

/-- The servers of the running proxy. -/
abbrev ServerTable := List RunningServer

namespace RunningServer

/-- What a command calls the server. -/
def key (r : RunningServer) : String × String := (r.backend, r.name)

/-- What traffic sees of the server when it is ready. -/
def live (r : RunningServer) : LiveServer := ⟨r.ip, r.port, r.weight⟩

/-- **One action on the server.** -/
def act (r : RunningServer) : ServerAction → RunningServer
  | .setWeight weight => { r with weight }
  | .maintain => { r with ready := false }
  | .setAddress ip port => { r with ip, port }
  | .makeReady => { r with ready := true }

/-- The server after some actions, in order. -/
def after (r : RunningServer) (as : List ServerAction) : RunningServer := as.foldl act r

@[simp] theorem key_act (r : RunningServer) (a : ServerAction) : (r.act a).key = r.key := by
  cases a <;> rfl

@[simp] theorem key_after (r : RunningServer) (as : List ServerAction) :
    (r.after as).key = r.key := by
  induction as generalizing r with
  | nil => rfl
  | cons a as ih => exact (ih (r.act a)).trans (r.key_act a)

@[simp] theorem backend_after (r : RunningServer) (as : List ServerAction) :
    (r.after as).backend = r.backend := (Prod.mk.inj (r.key_after as)).1

end RunningServer

/-- **One command on the table**: an action on the server it names. -/
def ServerCommand.run (c : ServerCommand) (t : ServerTable) : ServerTable :=
  t.map fun r => if r.key = (c.backend, c.server) then r.act c.action else r

/-- Commands, one after the other. -/
def runCommands (cs : List ServerCommand) (t : ServerTable) : ServerTable :=
  cs.foldl (fun t c => c.run t) t

/-- The actions on one row. -/
abbrev RunningServer.actionsIn (r : RunningServer) (cs : List ServerCommand) : List ServerAction :=
  actionsAt r.backend r.name cs

/-- **Every server undergoes the actions sent to it**, and nothing else. -/
theorem runCommands_eq_map : ∀ (cs : List ServerCommand) (t : ServerTable),
    runCommands cs t = t.map fun r => r.after (r.actionsIn cs)
  | [], t => (List.map_id t).symm
  | c :: cs, t => by
      rw [runCommands, List.foldl_cons]
      refine (runCommands_eq_map cs (c.run t)).trans ?_
      rw [ServerCommand.run, List.map_map]
      refine List.map_congr_left fun r _ => ?_
      obtain ⟨backend, server, a⟩ := c
      by_cases h : r.key = (backend, server)
      · obtain ⟨rfl, rfl⟩ := Prod.mk.inj h
        have hkey := Prod.mk.inj (r.key_act a)
        rw [Function.comp_apply, if_pos h, RunningServer.actionsIn, hkey.1, hkey.2,
          RunningServer.actionsIn, actionsAt_cons_self]
        rfl
      · rw [Function.comp_apply, if_neg h, RunningServer.actionsIn, RunningServer.actionsIn,
          actionsAt_cons_of_key_ne h]

theorem map_key_runCommands (cs : List ServerCommand) (t : ServerTable) :
    (runCommands cs t).map RunningServer.key = t.map RunningServer.key := by
  rw [runCommands_eq_map, List.map_map]
  exact List.map_congr_left fun r _ => r.key_after _

/-- **The line is obeyed if it is a command.** -/
def ServerTable.obey (t : ServerTable) (line : String) : ServerTable :=
  match ServerCommand.read line with
  | some c => c.run t
  | none => t

theorem ServerTable.obey_text {c : ServerCommand} (h : c.IsPlain) (t : ServerTable) :
    t.obey c.text = c.run t := by rw [obey, ServerCommand.read_text h]

/-- Lines, one after the other. -/
def ServerTable.obeyAll (t : ServerTable) (lines : List String) : ServerTable :=
  lines.foldl obey t

/-- **Lines of commands act like the commands.** -/
theorem ServerTable.obeyAll_text : ∀ {cs : List ServerCommand} (t : ServerTable),
    (∀ c ∈ cs, c.IsPlain) → t.obeyAll (cs.map ServerCommand.text) = runCommands cs t
  | [], _, _ => rfl
  | c :: cs, t, h => by
      obtain ⟨hc, hcs⟩ := List.forall_mem_cons.mp h
      rw [obeyAll, List.map_cons, List.foldl_cons, obey_text hc]
      exact obeyAll_text (c.run t) hcs

/-- The ready servers of a backend, as traffic sees them. -/
def ServerTable.live (t : ServerTable) (backend : String) : List LiveServer :=
  (t.filter fun r => r.backend == backend && r.ready).map RunningServer.live

/-! ## The table of a generation -/

/-- A server as the proxy starts it. -/
def Server.running (backend : String) (s : Server) : RunningServer :=
  ⟨backend, s.name, s.ip, s.port, s.weight, s.enabled⟩

namespace Generation

/-- **The table that a generation describes.** -/
def table (g : Generation) : ServerTable :=
  g.backends.flatMap fun b => b.servers.map (Server.running b.id)

theorem mem_table_iff {g : Generation} {r : RunningServer} :
    r ∈ g.table ↔ ∃ b ∈ g.backends, ∃ s ∈ b.servers, r = s.running b.id := by
  simp only [table, List.mem_flatMap, List.mem_map, eq_comm (b := r)]

theorem map_key_table (g : Generation) : g.table.map RunningServer.key
    = g.backends.flatMap fun b => b.servers.map fun s => (b.id, s.name) := by
  rw [table, List.map_flatMap]
  exact List.flatMap_congr fun b _ => List.map_map

/-- **A built generation names no server twice.** -/
theorem IsBuilt.nodup_keys {g : Generation} (h : g.IsBuilt) :
    (g.table.map RunningServer.key).Nodup := by
  rw [map_key_table, List.nodup_flatMap]
  refine ⟨fun b hb => ?_, (List.pairwise_map.mp h.nodup_ids).imp fun hne => ?_⟩
  · have := (h.sound b hb).names.map (f := fun n => (b.id, n)) fun m n hmn => (Prod.mk.inj hmn).2
    rwa [List.map_map] at this
  · intro k hk hk'
    obtain ⟨s, -, rfl⟩ := List.mem_map.mp hk
    obtain ⟨s', -, heq⟩ := List.mem_map.mp hk'
    exact hne (Prod.mk.inj heq).1.symm

end Generation

/-- **The table serves what the generation says**: its servers and no others, the enabled ones ready
where and as heavy as they should be, the disabled ones in maintenance. -/
structure ServerTable.Shows (t : ServerTable) (g : Generation) : Prop where
  servers : (t.map RunningServer.key).Perm (g.table.map RunningServer.key)
  ready : ∀ b ∈ g.backends, ∀ s ∈ b.servers, s.enabled = true →
    ⟨b.id, s.name, s.ip, s.port, s.weight, true⟩ ∈ t
  maintained : ∀ b ∈ g.backends, ∀ s ∈ b.servers, s.enabled = false →
    ∃ r ∈ t, r.backend = b.id ∧ r.name = s.name ∧ r.ready = false

/-- **The row of a server**: in traffic exactly when the server is enabled, and then as it is
described. -/
structure RunningServer.Runs (r : RunningServer) (backend : String) (s : Server) : Prop where
  key : r.key = (backend, s.name)
  ready : r.ready = s.enabled
  live : s.enabled = true → r.live = s.live

namespace RunningServer.Runs

variable {r : RunningServer} {backend : String} {s : Server}

theorem backend_eq (h : r.Runs backend s) : r.backend = backend := (Prod.mk.inj h.key).1

/-- What is sent to the row is what is sent to the server. -/
theorem actionsIn_eq (h : r.Runs backend s) (cs : List ServerCommand) :
    r.actionsIn cs = actionsAt backend s.name cs := by
  obtain ⟨hbackend, hname⟩ := Prod.mk.inj h.key
  rw [actionsIn, hbackend, hname]

/-- The row of an enabled server says everything about it. -/
theorem eq_running (h : r.Runs backend s) (he : s.enabled = true) : r = s.running backend := by
  obtain ⟨rb, rn, rip, rport, rweight, rready⟩ := r
  obtain ⟨hkey, hready, hlive⟩ := h
  obtain ⟨rfl, rfl⟩ := Prod.mk.inj hkey
  obtain ⟨rfl, rfl, rfl⟩ := LiveServer.mk.inj (hlive he)
  obtain rfl := hready
  rfl

end RunningServer.Runs

namespace ServerTable.Shows

variable {t : ServerTable} {g : Generation}

/-- Every server has its row. -/
theorem exists_runs (h : t.Shows g) {b : Backend} (hb : b ∈ g.backends) {s : Server}
    (hs : s ∈ b.servers) : ∃ r ∈ t, r.Runs b.id s := by
  cases he : s.enabled with
  | true => exact ⟨_, h.ready b hb s hs he, rfl, he.symm, fun _ => rfl⟩
  | false =>
    obtain ⟨r, hr, hid, hname, hready⟩ := h.maintained b hb s hs he
    exact ⟨r, hr, Prod.ext hid hname, hready.trans he.symm, fun h => nomatch he.symm.trans h⟩

/-- **A table serves a generation when it has the row of every server** and no other. -/
theorem of_exists_runs (hservers : (t.map RunningServer.key).Perm (g.table.map RunningServer.key))
    (h : ∀ b ∈ g.backends, ∀ s ∈ b.servers, ∃ r ∈ t, r.Runs b.id s) : t.Shows g where
  servers := hservers
  ready b hb s hs he := by
    obtain ⟨r, hr, hruns⟩ := h b hb s hs
    have := hruns.eq_running he ▸ hr
    rwa [Server.running, he] at this
  maintained b hb s hs he := by
    obtain ⟨r, hr, hruns⟩ := h b hb s hs
    obtain ⟨hid, hname⟩ := Prod.mk.inj hruns.key
    exact ⟨r, hr, hid, hname, hruns.ready.trans he⟩

/-- A generation's own table serves it. -/
theorem table (g : Generation) : ServerTable.Shows g.table g :=
  of_exists_runs (List.Perm.refl _) fun b hb s hs =>
    ⟨s.running b.id, Generation.mem_table_iff.mpr ⟨b, hb, s, hs, rfl⟩, rfl, rfl, fun _ => rfl⟩

/-- Names are distinct in a table that serves a built generation. -/
theorem nodup_keys (h : t.Shows g) (hg : g.IsBuilt) : (t.map RunningServer.key).Nodup :=
  h.servers.nodup_iff.mpr hg.nodup_keys

/-- **Every row is the row of a server.** -/
theorem runs_of_mem (h : t.Shows g) (hg : g.IsBuilt) {r : RunningServer} (hr : r ∈ t) :
    ∃ b ∈ g.backends, ∃ s ∈ b.servers, r.Runs b.id s := by
  obtain ⟨r', hr', hkey⟩ := List.mem_map.mp (h.servers.mem_iff.mp (List.mem_map_of_mem hr))
  obtain ⟨b, hb, s, hs, rfl⟩ := Generation.mem_table_iff.mp hr'
  obtain ⟨r'', hr'', hruns⟩ := h.exists_runs hb hs
  have : r'' = r := List.inj_on_of_nodup_map (h.nodup_keys hg) hr'' hr (hruns.key.trans hkey)
  exact ⟨b, hb, s, hs, this ▸ hruns⟩

/-- **The ready servers of a backend are its enabled ones**, each once. -/
theorem live_perm (h : t.Shows g) (hg : g.IsBuilt) {b : Backend} (hb : b ∈ g.backends) :
    (t.live b.id).Perm b.live := by
  have hrows : (t.filter fun r => r.backend == b.id && r.ready).Perm
      (b.enabledServers.map (Server.running b.id)) := by
    have hnodup : (b.enabledServers.map (Server.running b.id)).Nodup :=
      List.Nodup.of_map RunningServer.name (by
        rw [List.map_map]
        exact (hg.sound b hb).names.sublist (List.filter_sublist.map _))
    refine (List.perm_ext_iff_of_nodup ((List.Nodup.of_map _ (h.nodup_keys hg)).filter _)
      hnodup).mpr fun r => ?_
    simp only [List.mem_filter, Bool.and_eq_true, beq_iff_eq, List.mem_map, Backend.enabledServers]
    constructor
    · rintro ⟨hr, hid, hready⟩
      obtain ⟨b', hb', s, hs, hruns⟩ := h.runs_of_mem hg hr
      obtain rfl : b' = b :=
        List.inj_on_of_nodup_map hg.nodup_ids hb' hb (hruns.backend_eq.symm.trans hid)
      have he : s.enabled = true := hruns.ready.symm.trans hready
      exact ⟨s, ⟨hs, he⟩, (hruns.eq_running he).symm⟩
    · rintro ⟨s, ⟨hs, he⟩, rfl⟩
      refine ⟨?_, rfl, he⟩
      rw [Server.running, he]
      exact h.ready b hb s hs he
  exact (hrows.map _).trans (List.Perm.of_eq (by rw [List.map_map]; rfl))

/-- **A generation with the same servers in another order is served, too.** -/
theorem mapBackends (h : t.Shows g) {f : Backend → Backend} (hid : ∀ b, (f b).id = b.id)
    (hservers : ∀ b : Backend, (f b).servers.Perm b.servers) : t.Shows (g.mapBackends f) where
  servers := by
    refine h.servers.trans ?_
    have hbackends : (g.mapBackends f).backends = g.backends.map f := rfl
    rw [Generation.map_key_table, Generation.map_key_table, hbackends, List.flatMap_map]
    refine List.Perm.flatMap_left g.backends fun b _ => ?_
    rw [hid]
    exact (hservers b).symm.map _
  ready b hb s hs := by
    obtain ⟨c, hc, rfl⟩ := List.mem_map.mp hb
    rw [hid]
    exact h.ready c hc s ((hservers c).mem_iff.mp hs)
  maintained b hb s hs := by
    obtain ⟨c, hc, rfl⟩ := List.mem_map.mp hb
    rw [hid]
    exact h.maintained c hc s ((hservers c).mem_iff.mp hs)

end ServerTable.Shows

end Rollout
