import Mathlib.Data.List.Perm.Subperm
import Rollout.Proofs.Patch.Patched

/-!
# Proofs/Patch/Settled — when a plan has nothing to do

The comparison of two generations and the planner look at them in different ways: one compares
multisets of live servers, the other matches servers one by one.  `planBackend_settled_iff` says
that a backend has a plan without commands exactly when the multisets agree, and
`exists_settled_plan_iff` lifts that to generations.
-/

namespace Rollout

/-! ## Where a server listens, as text -/

/-- Texts are split by the last of their separators. -/
theorem append_cons_inj_of_not_mem_right {α : Type} {a : α} {xs ys ds es : List α} (hd : a ∉ ds)
    (he : a ∉ es) (h : xs ++ a :: ds = ys ++ a :: es) : xs = ys ∧ ds = es := by
  rcases List.append_eq_append_iff.mp h with ⟨as, rfl, has⟩ | ⟨as, rfl, has⟩
  · cases as with
    | nil => exact ⟨(List.append_nil _).symm, (List.cons.inj has).2⟩
    | cons c as =>
      exact absurd ((List.cons.inj has).2 ▸ List.mem_append_right as List.mem_cons_self) hd
  · cases as with
    | nil => exact ⟨List.append_nil _, (List.cons.inj has).2.symm⟩
    | cons c as =>
      exact absurd ((List.cons.inj has).2 ▸ List.mem_append_right as List.mem_cons_self) he

/-- **The text of a place tells the place**, as no port has a colon in it. -/
theorem Server.target_eq_iff {s t : Server} : s.target = t.target ↔ s.place = t.place := by
  have hcolon : ∀ n, ':' ∉ Text.digits n := fun n h =>
    absurd (Text.isDigit_of_mem_digits h) (by decide)
  have hlist : ∀ s : Server, s.target.toList = s.ip.toList ++ ':' :: Text.digits s.port.toNat := by
    intro s
    rw [target, String.toList_append, String.toList_append, Text.toList_decimal, List.append_assoc]
    rfl
  rw [Prod.mk.injEq, ← String.toList_inj, hlist, hlist]
  constructor
  · intro h
    obtain ⟨hip, hport⟩ := append_cons_inj_of_not_mem_right (hcolon _) (hcolon _) h
    exact ⟨String.toList_inj.mp hip, UInt16.toNat_inj.mp (Text.digits_injective hport)⟩
  · rintro ⟨hip, hport⟩
    rw [hip, hport]

/-- Distinct texts are distinct places. -/
theorem nodup_target_iff {servers : List Server} :
    (servers.map Server.target).Nodup ↔ (servers.map Server.place).Nodup := by
  rw [List.Nodup, List.Nodup, List.pairwise_map, List.pairwise_map]
  exact List.Pairwise.iff fun s t => not_congr Server.target_eq_iff

/-! ## One backend -/

/-- **A running server is matched with a server of the same weight, if the right ones run.** -/
theorem live_eq_of_find? {s t : Server} {wanted : List Server}
    (hmem : s.live ∈ wanted.map Server.live) (hplaces : (wanted.map Server.place).Nodup)
    (hfound : wanted.find? s.sameTarget = some t) : t.live = s.live := by
  obtain ⟨w, hw, hlive⟩ := List.mem_map.mp hmem
  obtain ⟨hip, hport, -⟩ := LiveServer.mk.inj hlive
  have hplace : w.place = s.place := Prod.ext hip hport
  have hplace' : s.place = t.place := Server.sameTarget_iff_place.mp (List.find?_some hfound)
  obtain rfl : w = t := List.inj_on_of_nodup_map hplaces hw (List.mem_of_find?_eq_some hfound)
    (hplace.trans hplace')
  exact hlive

/-- **Nothing is released or left over when the right servers run already.** -/
theorem release_of_perm {backend : String} {running wanted : List Server}
    (hlive : (liveServers running).Perm (wanted.map Server.live))
    (hplaces : (wanted.map Server.place).Nodup) :
    release backend running wanted = ⟨running, [], []⟩ := by
  fun_induction release backend running wanted with
  | case1 wanted => rw [List.map_eq_nil_iff.mp (List.nil_perm.mp hlive)]
  | case2 s rest wanted he t hf r hw ih =>
    rw [liveServers_cons_of_enabled he] at hlive
    have htlive := live_eq_of_find? (hlive.subset List.mem_cons_self) hplaces hf
    have hcons := hlive.trans ((perm_cons_eraseP hf).map Server.live)
    rw [List.map_cons, htlive] at hcons
    have hr : r = ⟨rest, [], []⟩ :=
      ih hcons.cons_inv (hplaces.sublist (List.eraseP_sublist.map _))
    rw [hr]
  | case3 s rest wanted he t hf r hw ih =>
    rw [liveServers_cons_of_enabled he] at hlive
    have htlive := live_eq_of_find? (hlive.subset List.mem_cons_self) hplaces hf
    exact absurd (LiveServer.mk.inj htlive).2.2 hw
  | case4 s rest wanted he hf r ih =>
    rw [liveServers_cons_of_enabled he] at hlive
    obtain ⟨w, hw, hwlive⟩ := List.mem_map.mp (hlive.subset List.mem_cons_self)
    obtain ⟨hip, hport, -⟩ := LiveServer.mk.inj hwlive
    exact absurd (Server.sameTarget_iff.mpr ⟨hip.symm, hport.symm⟩) (List.find?_eq_none.mp hf w hw)
  | case5 s rest wanted he r ih =>
    rw [liveServers_cons_of_disabled (Bool.not_eq_true _ ▸ he)] at hlive
    have hr : r = ⟨rest, [], []⟩ := ih hlive hplaces
    rw [hr]

/-- A backend whose commands are none keeps its servers. -/
theorem BackendPlan.Spec.servers_eq {o b : Backend} {p : BackendPlan} (h : p.Spec o b)
    (hnone : p.commands = []) : p.servers = o.servers := by
  have hchanges := h.changes
  rw [hnone] at hchanges
  have hsame : List.Forall₂ Eq p.servers o.servers :=
    List.Forall₂.flip (hchanges.imp fun s t hst => hst.eq_of_nil)
  exact List.forall₂_eq_eq_eq ▸ hsame

/-- **A backend has a plan without commands exactly when it serves the right servers already**, and
no two of them at one place. -/
theorem planBackend_settled_iff {o b : Backend} (hnames : (o.servers.map (·.name)).Nodup) :
    (∃ p, planBackend o b = some p ∧ p.commands = []) ↔
      b.live.Perm o.live ∧ (b.enabledServers.map Server.place).Nodup := by
  constructor
  · rintro ⟨p, hp, hnone⟩
    have hspec := planBackend_spec hnames hp
    refine ⟨?_, hspec.places⟩
    have hlive := hspec.live
    rw [hspec.servers_eq hnone] at hlive
    exact hlive.symm
  · rintro ⟨hlive, hplaces⟩
    have hrelease : release b.id o.servers b.enabledServers = ⟨o.servers, [], []⟩ :=
      release_of_perm hlive.symm hplaces
    refine ⟨⟨b.id, o.servers, []⟩, ?_, rfl⟩
    rw [planBackend]
    simp only [hrelease, occupySlots, Option.map_some, List.append_nil]
    exact if_pos hplaces

/-! ## Whole generations -/

/-- Choices for the elements of a list make a list of choices. -/
theorem exists_forall₂ {α β : Type} {R : α → β → Prop} : ∀ {l : List α}, (∀ a ∈ l, ∃ b, R a b) →
    ∃ r, List.Forall₂ R l r
  | [], _ => ⟨[], .nil⟩
  | a :: l, h => by
      obtain ⟨⟨b, hb⟩, hl⟩ := List.forall_mem_cons.mp h
      obtain ⟨r, hr⟩ := exists_forall₂ hl
      exact ⟨b :: r, .cons hb hr⟩

/-- **What the comparison of generations finds equal.** -/
theorem serves_iff {g old : Generation} : g.serves old = true ↔
    g.sameRouting old = true ∧ g.backends.length = old.backends.length ∧
      ∀ b ∈ g.backends, ∃ o, old.backend? b.id = some o ∧ b.sameSettings o = true ∧
        b.live.Perm o.live := by
  have hone : ∀ b : Backend, Generation.servesLike old b = true ↔
      ∃ o, old.backend? b.id = some o ∧ b.sameSettings o = true ∧ b.live.Perm o.live := by
    intro b
    rw [Generation.servesLike]
    cases old.backend? b.id <;> simp [List.isPerm_iff]
  rw [Generation.serves, Bool.and_eq_true, Bool.and_eq_true, beq_iff_eq, List.all_eq_true,
    and_assoc]
  exact and_congr_right fun _ => and_congr_right fun _ => forall₂_congr fun b _ => hone b

namespace Generation.IsBuilt

variable {old current : Generation}

/-- Built generations name the same backends when their ids are the same, up to order. -/
theorem sameBackendIds_iff_perm (hold : old.IsBuilt) (hcurrent : current.IsBuilt) :
    sameBackendIds old current = true ↔
      (current.backends.map (·.id)).Perm (old.backends.map (·.id)) := by
  rw [sameBackendIds_iff, List.perm_ext_iff_of_nodup hcurrent.nodup_ids hold.nodup_ids]
  simp only [List.mem_map]
  constructor
  · rintro ⟨hto, hfrom⟩ id
    constructor
    · rintro ⟨b, hb, rfl⟩
      exact hfrom b hb
    · rintro ⟨o, ho, rfl⟩
      exact hto o ho
  · intro h
    exact ⟨fun o ho => (h o.id).mpr ⟨o, ho, rfl⟩, fun b hb => (h b.id).mp ⟨b, hb, rfl⟩⟩

/-- **Counting backends is as good as comparing their ids**, once every backend of the one is found
in the other. -/
theorem sameBackendIds_iff_length (hold : old.IsBuilt) (hcurrent : current.IsBuilt)
    (hfound : ∀ b ∈ current.backends, ∃ o, old.backend? b.id = some o) :
    sameBackendIds old current = true ↔ current.backends.length = old.backends.length := by
  rw [hold.sameBackendIds_iff_perm hcurrent]
  constructor
  · intro h
    simpa using h.length_eq
  · intro h
    have hsub : current.backends.map (·.id) ⊆ old.backends.map (·.id) := by
      intro id hid
      obtain ⟨b, hb, rfl⟩ := List.mem_map.mp hid
      obtain ⟨o, ho⟩ := hfound b hb
      obtain ⟨ho, hob⟩ := mem_of_backend?_eq_some ho
      exact List.mem_map.mpr ⟨o, ho, hob⟩
    refine (List.subperm_of_subset hcurrent.nodup_ids hsub).perm_of_length_le ?_
    rw [List.length_map, List.length_map, h]

end Generation.IsBuilt

/-- **A plan without commands exists exactly between generations that serve the same**, if no two
servers are wanted at one place. -/
theorem exists_settled_plan_iff {old current : Generation} (hold : old.IsBuilt)
    (hcurrent : current.IsBuilt) :
    (∃ plans, planPatch old current = some plans ∧ planCommands plans = []) ↔
      current.serves old = true ∧
        ∀ b ∈ current.backends, (b.enabledServers.map Server.target).Nodup := by
  constructor
  · rintro ⟨plans, hplan, hnone⟩
    obtain ⟨hrouting, hids, hplans⟩ := planPatch_eq_some_iff.mp hplan
    have hall : ∀ b ∈ current.backends, ∃ o, old.backend? b.id = some o ∧
        b.sameSettings o = true ∧ b.live.Perm o.live ∧
          (b.enabledServers.map Server.place).Nodup := by
      intro b hb
      obtain ⟨p, hp, o, ho, hsettings, hbackend⟩ := forall₂_mem_left hplans b hb
      have hmem := (Generation.mem_of_backend?_eq_some ho).1
      exact ⟨o, ho, hsettings, (planBackend_settled_iff (hold.sound o hmem).names).mp
        ⟨p, hbackend, List.flatMap_eq_nil_iff.mp hnone p hp⟩⟩
    constructor
    · refine serves_iff.mpr ⟨hrouting, ?_, fun b hb => ?_⟩
      · refine (hold.sameBackendIds_iff_length hcurrent fun b hb => ?_).mp hids
        obtain ⟨o, ho, -⟩ := hall b hb
        exact ⟨o, ho⟩
      · obtain ⟨o, ho, hsettings, hlive, -⟩ := hall b hb
        exact ⟨o, ho, hsettings, hlive⟩
    · intro b hb
      obtain ⟨o, -, -, -, hplaces⟩ := hall b hb
      exact nodup_target_iff.mpr hplaces
  · rintro ⟨hserves, htargets⟩
    obtain ⟨hrouting, hlength, hall⟩ := serves_iff.mp hserves
    have hone : ∀ b ∈ current.backends, ∃ p, (∃ o, old.backend? b.id = some o ∧
        b.sameSettings o = true ∧ planBackend o b = some p) ∧ p.commands = [] := by
      intro b hb
      obtain ⟨o, ho, hsettings, hlive⟩ := hall b hb
      have hmem := (Generation.mem_of_backend?_eq_some ho).1
      obtain ⟨p, hp, hnone⟩ := (planBackend_settled_iff (hold.sound o hmem).names).mpr
        ⟨hlive, nodup_target_iff.mp (htargets b hb)⟩
      exact ⟨p, ⟨o, ho, hsettings, hp⟩, hnone⟩
    obtain ⟨plans, hplans⟩ := exists_forall₂ hone
    refine ⟨plans, planPatch_eq_some_iff.mpr ⟨hrouting, ?_, hplans.imp fun b p h => h.1⟩, ?_⟩
    · refine (hold.sameBackendIds_iff_length hcurrent fun b hb => ?_).mpr hlength
      obtain ⟨o, ho, -⟩ := hall b hb
      exact ⟨o, ho⟩
    · refine List.flatMap_eq_nil_iff.mpr fun p hp => ?_
      obtain ⟨b, -, -, hnone⟩ := forall₂_mem_right hplans p hp
      exact hnone

end Rollout
