import Mathlib.Data.Multiset.Defs
import Mathlib.Logic.Relation
import Rollout.Proofs.Cycle.Relist

/-!
# Proofs/Cycle/Service — the comparison sees what is served

The comparison of two generations is one-sided: it counts the backends of both, and looks every backend of
the one up in the other.  Where no id is listed twice, this comes to the same as comparing the backends as
two multisets (`serves_iff_resembles`), and that is an equivalence.  What it sees is everything but the
names of the servers, the order of the lists and what is disabled (`Generation.ServesAlike`); rewriting
these any number of times (`Generation.Reworks`) changes no comparison (`comparison_sees_service`).
-/

namespace Rollout

/-! ## Backends in no order -/

/-- What traffic sees of a backend: its id, its settings, and its live servers in no order. -/
def Backend.outline (b : Backend) : String × Mode × String × Multiset LiveServer :=
  (b.id, b.mode, b.balance, b.live)

theorem Backend.outline_eq_iff {b c : Backend} :
    b.outline = c.outline ↔ b.sameSettings c = true ∧ b.live.Perm c.live := by
  simp only [outline, Prod.mk.injEq, Multiset.coe_eq_coe, sameSettings_iff, and_assoc]

namespace Generation

variable {g h k : Generation}

/-- What traffic sees of the backends. -/
def outlines (g : Generation) : List (String × Mode × String × Multiset LiveServer) :=
  g.backends.map Backend.outline

theorem map_fst_outlines (g : Generation) : g.outlines.map Prod.fst = g.backends.map (·.id) :=
  List.map_map

/-- **Two generations with the same routing, and backends that traffic cannot tell apart.** -/
structure Resembles (g h : Generation) : Prop where
  routing : g.sameRouting h = true
  outlines : g.outlines.Perm h.outlines

theorem Resembles.refl (g : Generation) : g.Resembles g :=
  ⟨sameRouting_iff.mpr ⟨rfl, rfl, rfl, rfl, rfl⟩, .refl _⟩

theorem Resembles.symm (hgh : g.Resembles h) : h.Resembles g := by
  obtain ⟨hglobals, hhosts, hdefault, hfrontends, hmaps⟩ := sameRouting_iff.mp hgh.routing
  exact ⟨sameRouting_iff.mpr ⟨hglobals.symm, hhosts.symm, hdefault.symm, hfrontends.symm, hmaps.symm⟩,
    hgh.outlines.symm⟩

theorem Resembles.trans (hgh : g.Resembles h) (hhk : h.Resembles k) : g.Resembles k := by
  obtain ⟨hglobals, hhosts, hdefault, hfrontends, hmaps⟩ := sameRouting_iff.mp hgh.routing
  obtain ⟨hglobals', hhosts', hdefault', hfrontends', hmaps'⟩ := sameRouting_iff.mp hhk.routing
  exact ⟨sameRouting_iff.mpr ⟨hglobals.trans hglobals', hhosts.trans hhosts',
    hdefault.trans hdefault', hfrontends.trans hfrontends', hmaps.trans hmaps'⟩,
    hgh.outlines.trans hhk.outlines⟩

/-- The ids are part of what traffic sees. -/
theorem Resembles.ids (hgh : g.Resembles h) :
    (g.backends.map (·.id)).Perm (h.backends.map (·.id)) := by
  rw [← map_fst_outlines, ← map_fst_outlines]
  exact hgh.outlines.map Prod.fst

theorem nodup_outlines (hg : (g.backends.map (·.id)).Nodup) : g.outlines.Nodup :=
  .of_map Prod.fst (g.map_fst_outlines ▸ hg)

/-- **Looking every backend up is comparing multisets**, if no id is listed twice. -/
theorem serves_iff_resembles (hg : (g.backends.map (·.id)).Nodup)
    (hh : (h.backends.map (·.id)).Nodup) : g.serves h = true ↔ g.Resembles h := by
  rw [serves_iff]
  constructor
  · rintro ⟨hrouting, hlength, hfound⟩
    have hsub : g.outlines ⊆ h.outlines := by
      intro x hx
      obtain ⟨b, hb, rfl⟩ := List.mem_map.mp hx
      obtain ⟨o, ho, hsettings, hlive⟩ := hfound b hb
      exact List.mem_map.mpr ⟨o, (mem_of_backend?_eq_some ho).1,
        (Backend.outline_eq_iff.mpr ⟨hsettings, hlive⟩).symm⟩
    refine ⟨hrouting, (List.subperm_of_subset (nodup_outlines hg) hsub).perm_of_length_le ?_⟩
    rw [outlines, outlines, List.length_map, List.length_map, hlength]
  · rintro ⟨hrouting, houtlines⟩
    refine ⟨hrouting, by simpa [outlines] using houtlines.length_eq, fun b hb => ?_⟩
    obtain ⟨o, ho, heq⟩ := List.mem_map.mp (houtlines.subset (List.mem_map_of_mem hb))
    obtain ⟨hsettings, hlive⟩ := Backend.outline_eq_iff.mp heq.symm
    have hid : o.id = b.id := (Backend.sameSettings_iff.mp hsettings).1.symm
    exact ⟨o, (backend?_eq_some_iff_of_nodup hh).mpr ⟨ho, hid⟩, hsettings, hlive⟩

/-! ## What is seen -/

/-- **Two generations serve the same**: everything but their servers agrees, and under each id they list
backends with the same settings and the same enabled servers, counted by address, port and weight. -/
structure ServesAlike (g h : Generation) : Prop where
  globals : g.state.globals = h.state.globals
  hosts : g.state.hosts = h.state.hosts
  defaultBackend : g.state.defaultBackend = h.state.defaultBackend
  frontends : g.frontends = h.frontends
  pathMaps : g.pathMaps = h.pathMaps
  ids : ∀ id, id ∈ g.backends.map (·.id) ↔ id ∈ h.backends.map (·.id)
  mode : ∀ b ∈ g.backends, ∀ c ∈ h.backends, b.id = c.id → b.mode = c.mode
  balance : ∀ b ∈ g.backends, ∀ c ∈ h.backends, b.id = c.id → b.balance = c.balance
  live : ∀ b ∈ g.backends, ∀ c ∈ h.backends, b.id = c.id → b.live.Perm c.live

theorem resembles_iff_servesAlike (hg : (g.backends.map (·.id)).Nodup)
    (hh : (h.backends.map (·.id)).Nodup) : g.Resembles h ↔ g.ServesAlike h := by
  constructor
  · intro hgh
    obtain ⟨hglobals, hhosts, hdefault, hfrontends, hmaps⟩ := sameRouting_iff.mp hgh.routing
    have hsame : ∀ b ∈ g.backends, ∀ c ∈ h.backends, b.id = c.id → b.outline = c.outline := by
      intro b hb c hc hid
      obtain ⟨o, ho, heq⟩ := List.mem_map.mp (hgh.outlines.subset (List.mem_map_of_mem hb))
      have hoc : o.id = c.id := (congrArg Prod.fst heq).trans hid
      rw [← heq, List.inj_on_of_nodup_map hh ho hc hoc]
    exact ⟨hglobals, hhosts, hdefault, hfrontends, hmaps, fun id => hgh.ids.mem_iff,
      fun b hb c hc hid => congrArg (·.2.1) (hsame b hb c hc hid),
      fun b hb c hc hid => congrArg (·.2.2.1) (hsame b hb c hc hid),
      fun b hb c hc hid => (Backend.outline_eq_iff.mp (hsame b hb c hc hid)).2⟩
  · intro hgh
    have hsame : ∀ b ∈ g.backends, ∀ c ∈ h.backends, b.id = c.id → b.outline = c.outline :=
      fun b hb c hc hid => Backend.outline_eq_iff.mpr ⟨Backend.sameSettings_iff.mpr
        ⟨hid, hgh.mode b hb c hc hid, hgh.balance b hb c hc hid⟩, hgh.live b hb c hc hid⟩
    refine ⟨sameRouting_iff.mpr
      ⟨hgh.globals, hgh.hosts, hgh.defaultBackend, hgh.frontends, hgh.pathMaps⟩, ?_⟩
    refine (List.perm_ext_iff_of_nodup (nodup_outlines hg) (nodup_outlines hh)).mpr fun x => ?_
    constructor
    · intro hx
      obtain ⟨b, hb, rfl⟩ := List.mem_map.mp hx
      obtain ⟨c, hc, hid⟩ := List.mem_map.mp ((hgh.ids b.id).mp (List.mem_map_of_mem hb))
      exact List.mem_map.mpr ⟨c, hc, (hsame b hb c hc hid.symm).symm⟩
    · intro hx
      obtain ⟨c, hc, rfl⟩ := List.mem_map.mp hx
      obtain ⟨b, hb, hid⟩ := List.mem_map.mp ((hgh.ids c.id).mpr (List.mem_map_of_mem hc))
      exact List.mem_map.mpr ⟨b, hb, hsame b hb c hc hid⟩

end Generation

/-! ## What is not seen -/

/-- **A change of the servers of a backend that traffic does not see.** -/
inductive Backend.Reworks (b : Backend) : Backend → Prop where
  | rename (front back : List Server) (s : Server) (name : String)
      (listed : b.servers = front ++ s :: back) :
      Reworks b { b with servers := front ++ { s with name } :: back }
  | reorder (servers : List Server) (order : b.servers.Perm servers) : Reworks b { b with servers }
  | add (s : Server) (disabled : s.enabled = false) : Reworks b { b with servers := s :: b.servers }
  | drop (s : Server) (servers : List Server) (disabled : s.enabled = false)
      (listed : b.servers = s :: servers) : Reworks b { b with servers }

theorem Backend.Reworks.outline_eq {b c : Backend} (h : b.Reworks c) : b.outline = c.outline := by
  refine outline_eq_iff.mpr ?_
  cases h with
  | rename front back s name listed =>
    refine ⟨b.sameSettings_withServers _, .of_eq ?_⟩
    simp only [live, enabledServers, listed, List.filter_append, List.filter_cons]
    cases s.enabled <;> simp [Server.live]
  | reorder servers order =>
    exact ⟨b.sameSettings_withServers _, (order.filter _).map _⟩
  | add s disabled =>
    refine ⟨b.sameSettings_withServers _, .of_eq ?_⟩
    simp [live, enabledServers, disabled]
  | drop s servers disabled listed =>
    refine ⟨b.sameSettings_withServers _, .of_eq ?_⟩
    simp [live, enabledServers, listed, disabled]

namespace Generation

variable {g h : Generation}

/-- **A change of a generation that traffic does not see**: to the servers of one backend, or to the order
of the backends.  The artifacts stay as they are. -/
inductive Reworks (g : Generation) : Generation → Prop where
  | backend (front back : List Backend) (b c : Backend) (listed : g.backends = front ++ b :: back)
      (reworked : b.Reworks c) : Reworks g (g.withBackends (front ++ c :: back))
  | reorder (bs : List Backend) (order : g.backends.Perm bs) : Reworks g (g.withBackends bs)

theorem Reworks.resembles (hgh : g.Reworks h) : g.Resembles h := by
  cases hgh with
  | backend front back b c listed reworked =>
    refine ⟨(Resembles.refl g).routing, .of_eq ?_⟩
    simp only [outlines, listed, backends_withBackends, List.map_append, List.map_cons,
      reworked.outline_eq]
  | reorder bs order => exact ⟨(Resembles.refl g).routing, order.map _⟩

/-- **Nor does traffic see any number of them.** -/
theorem resembles_of_reworks (hgh : Relation.ReflTransGen Reworks g h) : g.Resembles h := by
  induction hgh with
  | refl => exact .refl g
  | tail _ hstep ih => exact ih.trans hstep.resembles

/-- A generation that is reworked into sound backends stays built. -/
theorem IsBuilt.of_reworks (hg : g.IsBuilt) (hgh : Relation.ReflTransGen Reworks g h)
    (hsound : ∀ b ∈ h.backends, b.Sound) : h.IsBuilt := by
  have hres := resembles_of_reworks hgh
  have hbuilt : (g.adoptServers h).IsBuilt := hg.withBackends hsound hres.ids.symm
  rwa [adoptServers_eq_of_sameRouting hres.routing] at hbuilt

end Generation

/-- **The comparison is an equivalence that sees only what the proxy serves.**  On built generations it is
reflexive, symmetric and transitive.  It holds exactly of two that serve the same; no rewriting of either
side that renames servers, reorders servers or backends, or adds or removes disabled servers has an
influence on it, and one that leaves sound backends leaves a built generation.  Where it holds, taking over
the servers of the other generation makes the two equal. -/
theorem comparison_sees_service {a b c : Generation} (ha : a.IsBuilt) (hb : b.IsBuilt)
    (hc : c.IsBuilt) :
    a.matchesOld (some a) = true ∧
    a.matchesOld (some b) = b.matchesOld (some a) ∧
    (a.matchesOld (some b) = true → b.matchesOld (some c) = true →
      a.matchesOld (some c) = true) ∧
    (a.matchesOld (some b) = true ↔ a.ServesAlike b) ∧
    (∀ a' b', Relation.ReflTransGen Generation.Reworks a a' →
      Relation.ReflTransGen Generation.Reworks b b' →
        a'.matchesOld (some b') = a.matchesOld (some b)) ∧
    (∀ a', Relation.ReflTransGen Generation.Reworks a a' → (∀ x ∈ a'.backends, x.Sound) →
      a'.IsBuilt) ∧
    (a.matchesOld (some b) = true → a.adoptServers b = b) := by
  have hids {g h : Generation} (hg : g.IsBuilt) (hgh : Relation.ReflTransGen Generation.Reworks g h) :
      (h.backends.map (·.id)).Nodup :=
    (Generation.resembles_of_reworks hgh).ids.nodup_iff.mp hg.nodup_ids
  have hiff {g h : Generation} (hg : g.IsBuilt) (hh : h.IsBuilt) :
      g.matchesOld (some h) = true ↔ g.Resembles h :=
    Generation.serves_iff_resembles hg.nodup_ids hh.nodup_ids
  refine ⟨(hiff ha ha).mpr (.refl a), ?_, fun hab hbc => ?_, ?_, fun a' b' haa' hbb' => ?_,
    fun a' haa' => ha.of_reworks haa', Generation.adoptServers_eq⟩
  · rw [Bool.eq_iff_iff, hiff ha hb, hiff hb ha]
    exact ⟨.symm, .symm⟩
  · exact (hiff ha hc).mpr (((hiff ha hb).mp hab).trans ((hiff hb hc).mp hbc))
  · exact (hiff ha hb).trans (Generation.resembles_iff_servesAlike ha.nodup_ids hb.nodup_ids)
  · have haa := Generation.resembles_of_reworks haa'
    have hbb := Generation.resembles_of_reworks hbb'
    rw [Bool.eq_iff_iff, hiff ha hb]
    refine (Generation.serves_iff_resembles (hids ha haa') (hids hb hbb')).trans ⟨fun h => ?_, fun h => ?_⟩
    · exact haa.trans (h.trans hbb.symm)
    · exact haa.symm.trans (h.trans hbb)

/-- The servers of `beforeRollout` under other names, without the slot. -/
def renamedRollout : Generation := .ofServers [
  { name := "blue", ip := "10.0.0.2", port := 80 },
  { name := "green", ip := "10.0.0.1", port := 80 }]

/-- Other names and no slot are not seen, another weight is. -/
theorem comparison_sees_service_rollout :
    (beforeRollout.matchesOld (some beforeRollout) = true ∧
    beforeRollout.matchesOld (some renamedRollout) = renamedRollout.matchesOld (some beforeRollout) ∧
    (beforeRollout.matchesOld (some renamedRollout) = true →
      renamedRollout.matchesOld (some afterRollout) = true →
        beforeRollout.matchesOld (some afterRollout) = true) ∧
    (beforeRollout.matchesOld (some renamedRollout) = true ↔
      beforeRollout.ServesAlike renamedRollout) ∧
    (∀ a' b', Relation.ReflTransGen Generation.Reworks beforeRollout a' →
      Relation.ReflTransGen Generation.Reworks renamedRollout b' →
        a'.matchesOld (some b') = beforeRollout.matchesOld (some renamedRollout)) ∧
    (∀ a', Relation.ReflTransGen Generation.Reworks beforeRollout a' →
      (∀ x ∈ a'.backends, x.Sound) → a'.IsBuilt) ∧
    (beforeRollout.matchesOld (some renamedRollout) = true →
      beforeRollout.adoptServers renamedRollout = renamedRollout)) ∧
    beforeRollout.matchesOld (some renamedRollout) = true ∧
    renamedRollout.matchesOld (some afterRollout) = false :=
  ⟨comparison_sees_service ⟨by decide +kernel, by decide +kernel⟩ ⟨by decide +kernel, by decide +kernel⟩
    ⟨by decide +kernel, by decide +kernel⟩, by decide +kernel, by decide +kernel⟩

end Rollout
