import Rollout.Patch.Apply
import Rollout.Proofs.Patch.Plan
import Rollout.Proofs.Patch.Table
import Rollout.Proofs.Traversal

/-!
# Proofs/Patch/Patched — a plan for every backend

`planPatch` pairs the backends of the new generation with their plans (`planPatch_eq_some_iff`), and
adopting the plans gives each of them the planned servers (`adoptPlans_eq`).  Since ids are
distinct, the commands to one backend are those of its own plan, so `Change` reaches from single
servers to the whole generation (`Planned`).
-/

namespace Rollout

/-! ## Planning every backend -/

theorem sameBackendIds_iff {g h : Generation} : sameBackendIds g h = true ↔
    (∀ b ∈ g.backends, ∃ c ∈ h.backends, c.id = b.id) ∧
      ∀ b ∈ h.backends, ∃ c ∈ g.backends, c.id = b.id := by
  simp [sameBackendIds]

/-- **A plan exists when routing and backends agree and every backend has one.** -/
theorem planPatch_eq_some_iff {old current : Generation} {plans : List BackendPlan} :
    planPatch old current = some plans ↔
      current.sameRouting old = true ∧ sameBackendIds old current = true ∧
        List.Forall₂ (fun b p => ∃ o, old.backend? b.id = some o ∧ b.sameSettings o = true ∧
          planBackend o b = some p) current.backends plans := by
  rw [planPatch]
  split_ifs with h
  · obtain ⟨hrouting, hids⟩ := Bool.and_eq_true_iff.mp h
    rw [mapM_eq_some_iff]
    constructor
    · refine fun hplans => ⟨hrouting, hids, hplans.imp fun b p hp => ?_⟩
      cases ho : old.backend? b.id with
      | none => simp [ho] at hp
      | some o => simpa [ho] using hp
    · refine fun ⟨_, _, hplans⟩ => hplans.imp fun b p hp => ?_
      obtain ⟨o, ho, hsettings, hp⟩ := hp
      simpa [ho, hsettings] using hp
  · constructor
    · simp
    · rintro ⟨hrouting, hids, -⟩
      exact absurd (Bool.and_eq_true_iff.mpr ⟨hrouting, hids⟩) h

/-! ## Adopting the plans -/

/-- The backends with the servers of their plans. -/
def patchedBackends (bs : List Backend) (plans : List BackendPlan) : List Backend :=
  List.zipWith (fun b p => { b with servers := p.servers }) bs plans

/-- The first backend of an id is changed, whatever stands before it under other ids. -/
theorem modifyFirst_append {id : String} {f : Backend → Backend} {b : Backend} {rest : List Backend}
    (hb : b.id = id) : ∀ {before : List Backend}, id ∉ before.map (·.id) →
      Generation.modifyFirst (fun b => b.id == id) f (before ++ b :: rest)
        = before ++ f b :: rest
  | [], _ => by
      rw [List.nil_append, Generation.modifyFirst, if_pos (beq_iff_eq.mpr hb), List.nil_append]
  | c :: before, h => by
      rw [List.map_cons, List.mem_cons, not_or] at h
      rw [List.cons_append, Generation.modifyFirst, if_neg (by simpa using Ne.symm h.1),
        modifyFirst_append hb h.2, List.cons_append]

theorem adoptPlans_append (g : Generation) : ∀ {bs : List Backend} {plans : List BackendPlan}
    (before : List Backend), List.Forall₂ (fun b p => p.id = b.id) bs plans →
      ((before ++ bs).map (·.id)).Nodup →
      adoptPlans plans (g.withBackends (before ++ bs))
        = g.withBackends (before ++ patchedBackends bs plans)
  | _, _, before, .nil, _ => rfl
  | b :: bs, p :: plans, before, .cons hp h, hids => by
      have hnew : p.id ∉ before.map (·.id) := by
        rw [List.map_append, List.nodup_append] at hids
        exact fun hmem => hids.2.2 _ hmem b.id (by simp) hp
      have hstep : (g.withBackends (before ++ b :: bs)).modifyBackend p.id
          (fun b => { b with servers := p.servers })
            = g.withBackends ((before ++ [{ b with servers := p.servers }]) ++ bs) := by
        rw [List.append_assoc]
        exact congrArg g.withBackends (modifyFirst_append hp.symm hnew)
      rw [adoptPlans, List.foldl_cons, hstep]
      refine (adoptPlans_append g _ h ?_).trans ?_
      · simpa using hids
      · rw [List.append_assoc]
        rfl

/-- **Adopting the plans gives every backend its planned servers.** -/
theorem adoptPlans_eq {g : Generation} {plans : List BackendPlan}
    (hids : (g.backends.map (·.id)).Nodup)
    (h : List.Forall₂ (fun b p => p.id = b.id) g.backends plans) :
    adoptPlans plans g = g.withBackends (patchedBackends g.backends plans) :=
  adoptPlans_append g [] h hids

/-- A patched backend is a backend with the servers of its plan. -/
theorem forall₂_patchedBackends {R : Backend → BackendPlan → Prop} {bs : List Backend}
    {plans : List BackendPlan} (h : List.Forall₂ R bs plans) :
    List.Forall₂ (fun b x => ∃ p ∈ plans, R b p ∧ x = { b with servers := p.servers }) bs
      (patchedBackends bs plans) := by
  induction h with
  | nil => exact .nil
  | @cons b p bs plans hbp _ ih =>
    refine .cons ⟨p, List.mem_cons_self, hbp, rfl⟩ (ih.imp fun c x => ?_)
    exact fun ⟨q, hq, hcq, hx⟩ => ⟨q, List.mem_cons_of_mem _ hq, hcq, hx⟩

/-! ## The commands to one backend -/

/-- **A backend hears the commands of its own plan only.** -/
theorem actionsAt_planCommands {p : BackendPlan} (server : String) : ∀ {plans : List BackendPlan},
    (plans.map (·.id)).Nodup → (∀ q ∈ plans, ∀ c ∈ q.commands, c.backend = q.id) → p ∈ plans →
      actionsAt p.id server (planCommands plans) = actionsAt p.id server p.commands
  | q :: plans, hids, hcs, hp => by
      obtain ⟨hnew, hids⟩ := List.nodup_cons.mp hids
      obtain ⟨hq, hrest⟩ := List.forall_mem_cons.mp hcs
      rw [planCommands, List.flatMap_cons, actionsAt_append]
      rcases List.mem_cons.mp hp with rfl | hp
      · have hnone : actionsAt p.id server (planCommands plans) = [] := by
          refine actionsAt_eq_nil_of_backend fun c hc heq => ?_
          obtain ⟨p', hp', hc'⟩ := List.mem_flatMap.mp hc
          have hid := hrest p' hp' c hc'
          exact hnew (List.mem_map.mpr ⟨p', hp', hid.symm.trans heq⟩)
        rw [← planCommands, hnone, List.append_nil]
      · have hnone : actionsAt p.id server q.commands = [] :=
          actionsAt_eq_nil_of_backend fun c hc heq =>
            hnew (List.mem_map.mpr ⟨p, hp, heq.symm.trans (hq c hc)⟩)
        rw [hnone, List.nil_append]
        exact actionsAt_planCommands server hids hrest hp

/-- A command to a server is among the actions on it. -/
theorem action_mem_actionsAt {cs : List ServerCommand} {c : ServerCommand} (hc : c ∈ cs) :
    c.action ∈ actionsAt c.backend c.server cs :=
  List.mem_map_of_mem (List.mem_filter.mpr ⟨hc, by simp⟩)

/-! ## Changes of the running proxy -/

namespace Change

variable {wanted added : List Server} {s t : Server} {as : List ServerAction}

/-- **A row that undergoes the actions of a change is the row of the changed server.** -/
theorem runs_after (h : Change wanted added s as t) {r : RunningServer} {backend : String}
    (hr : r.Runs backend s) : (r.after as).Runs backend t := by
  refine ⟨(r.key_after as).trans (h.name_eq ▸ hr.key), ?_, ?_⟩
  · cases h with
    | kept | reweighed | idle => exact hr.ready
    | emptied | filled | replaced => rfl
  · intro ht
    cases h with
    | kept _ enabled => exact hr.live enabled
    | reweighed w enabled =>
      obtain ⟨hip, hport, -⟩ := LiveServer.mk.inj (hr.live enabled)
      exact LiveServer.mk.injEq .. ▸ ⟨hip, hport, rfl⟩
    | emptied => exact nomatch ht
    | idle disabled => exact nomatch disabled.symm.trans ht
    | filled | replaced => rfl

/-- The actions of a change are plain if the addresses of the added servers can be parsed. -/
theorem isPlain (h : Change wanted added s as t)
    (hadded : ∀ w ∈ added, (Address.parse w.ip).isSome = true) : ∀ a ∈ as, a.IsPlain := by
  cases h with
  | kept | reweighed | emptied | idle => simp [ServerAction.IsPlain]
  | filled w _ mem | replaced w _ mem =>
    simpa [occupyActions, ServerAction.IsPlain] using hadded w mem

end Change

/-! ## A plan for the whole generation -/

/-- **The plans between two built generations.** -/
structure Planned (old current : Generation) (plans : List BackendPlan) : Prop where
  builtOld : old.IsBuilt
  built : current.IsBuilt
  planned : planPatch old current = some plans

namespace Planned

variable {old current : Generation} {plans : List BackendPlan}

/-- **Every backend stands beside its plan**, made against the old backend of the same id. -/
theorem forall₂ (h : Planned old current plans) :
    List.Forall₂ (fun b p => ∃ o ∈ old.backends, o.id = b.id ∧ p.Spec o b)
      current.backends plans := by
  obtain ⟨-, -, hf⟩ := planPatch_eq_some_iff.mp h.planned
  refine hf.imp fun b p => ?_
  rintro ⟨o, ho, -, hp⟩
  obtain ⟨hmem, hid⟩ := Generation.mem_of_backend?_eq_some ho
  exact ⟨o, hmem, hid, planBackend_spec (h.builtOld.sound o hmem).names hp⟩

/-- Plans carry the ids of their backends. -/
theorem forall₂_id (h : Planned old current plans) :
    List.Forall₂ (fun b p => p.id = b.id) current.backends plans :=
  h.forall₂.imp fun _ _ ⟨_, _, _, hp⟩ => hp.id

theorem ids_eq (h : Planned old current plans) :
    plans.map (·.id) = current.backends.map (·.id) :=
  map_eq_of_forall₂ h.forall₂_id fun _ _ hp => hp

/-- **Adopting the plans** gives every backend of the new generation its planned servers. -/
theorem adoptPlans_eq (h : Planned old current plans) :
    adoptPlans plans current = current.withBackends (patchedBackends current.backends plans) :=
  Rollout.adoptPlans_eq h.built.nodup_ids h.forall₂_id

/-- The patched generation, backend by backend. -/
theorem forall₂_patched (h : Planned old current plans) :
    List.Forall₂ (fun b x => ∃ p ∈ plans, (∃ o ∈ old.backends, o.id = b.id ∧ p.Spec o b) ∧
        x = { b with servers := p.servers })
      current.backends (adoptPlans plans current).backends := by
  rw [h.adoptPlans_eq, Generation.backends_withBackends]
  exact forall₂_patchedBackends h.forall₂

/-- **Every old backend is planned for.** -/
theorem exists_plan (h : Planned old current plans) {o : Backend} (ho : o ∈ old.backends) :
    ∃ b ∈ current.backends, ∃ p ∈ plans, o.id = b.id ∧ p.Spec o b ∧
      { b with servers := p.servers } ∈ (adoptPlans plans current).backends := by
  obtain ⟨-, hids, -⟩ := planPatch_eq_some_iff.mp h.planned
  obtain ⟨b, hb, hid⟩ := (sameBackendIds_iff.mp hids).1 o ho
  obtain ⟨x, hx, p, hp, ⟨o', ho', hid', hspec⟩, rfl⟩ := forall₂_mem_left h.forall₂_patched b hb
  obtain rfl : o' = o := List.inj_on_of_nodup_map h.builtOld.nodup_ids ho' ho (hid'.trans hid)
  exact ⟨b, hb, p, hp, hid', hspec, hx⟩

/-- **What is sent to a server of a backend is in the plan of that backend.** -/
theorem actionsAt_eq (h : Planned old current plans) {o b : Backend} {p : BackendPlan}
    (hp : p ∈ plans) (hspec : p.Spec o b) (server : String) :
    actionsAt b.id server (planCommands plans) = actionsAt b.id server p.commands := by
  rw [← hspec.id]
  refine actionsAt_planCommands server (h.ids_eq ▸ h.built.nodup_ids) (fun q hq c hc => ?_) hp
  obtain ⟨b', -, o', -, -, hspec'⟩ := forall₂_mem_right h.forall₂ q hq
  exact (hspec'.targets c hc).1.trans hspec'.id.symm

/-- The changes of a backend, along the whole stream of commands. -/
theorem changes (h : Planned old current plans) {o b : Backend} {p : BackendPlan}
    (hp : p ∈ plans) (hspec : p.Spec o b) :
    Changes b.enabledServers (addedServers o b) b.id (planCommands plans) o.servers p.servers :=
  hspec.changes.congr fun s _ => h.actionsAt_eq hp hspec s.name

/-- The servers that a plan adds are sound and enabled. -/
theorem sound_of_mem_added (h : Planned old current plans) {o b : Backend}
    (hb : b ∈ current.backends) : ∀ w ∈ addedServers o b, w.Sound ∧ w.enabled = true := by
  intro w hw
  obtain ⟨hmem, he⟩ := List.mem_filter.mp (addedServers_subset o b hw)
  exact ⟨(h.built.sound b hb).servers w hmem, he⟩

/-- **A command is planned for a backend of both generations**, in the plan of that backend. -/
theorem exists_spec_of_mem (h : Planned old current plans) {c : ServerCommand}
    (hc : c ∈ planCommands plans) :
    ∃ b ∈ current.backends, ∃ o ∈ old.backends, ∃ p : BackendPlan,
      o.id = b.id ∧ p.Spec o b ∧ c ∈ p.commands := by
  obtain ⟨p, hp, hcp⟩ := List.mem_flatMap.mp hc
  obtain ⟨b, hb, o, ho, hid, hspec⟩ := forall₂_mem_right h.forall₂ p hp
  exact ⟨b, hb, o, ho, p, hid, hspec, hcp⟩

/-- **The commands of a plan are lines of words.** -/
theorem isPlain (h : Planned old current plans) : ∀ c ∈ planCommands plans, c.IsPlain := by
  intro c hc
  obtain ⟨b, hb, o, ho, p, -, hspec, hcp⟩ := h.exists_spec_of_mem hc
  obtain ⟨hbackend, hserver⟩ := hspec.targets c hcp
  obtain ⟨s, hs, hname⟩ := List.mem_map.mp hserver
  obtain ⟨t, -, hst⟩ := forall₂_mem_left hspec.changes s hs
  refine ⟨hbackend ▸ (h.built.sound b hb).id,
    hname ▸ ((h.builtOld.sound o ho).servers s hs).name, ?_⟩
  refine hst.isPlain (fun w hw => ?_) c.action ?_
  · obtain ⟨hsound, he⟩ := h.sound_of_mem_added hb w hw
    exact hsound.address he
  · have := action_mem_actionsAt hcp
    rwa [hbackend, ← hname] at this

/-- **A patched generation is built.** -/
theorem isBuilt_adoptPlans (h : Planned old current plans) :
    (adoptPlans plans current).IsBuilt := by
  rw [h.adoptPlans_eq]
  have hpatched := forall₂_patchedBackends h.forall₂
  refine h.built.withBackends (fun x hx => ?_) (List.Perm.of_eq ?_)
  · obtain ⟨b, hb, p, -, ⟨o, ho, -, hspec⟩, rfl⟩ := forall₂_mem_right hpatched x hx
    refine ⟨(h.built.sound b hb).id, fun t ht => ?_, ?_⟩
    · obtain ⟨s, hs, hst⟩ := forall₂_mem_right hspec.changes t ht
      exact hst.sound ((h.builtOld.sound o ho).servers s hs) (h.sound_of_mem_added hb)
    · exact hspec.changes.names_eq ▸ (h.builtOld.sound o ho).names
  · exact map_eq_of_forall₂ hpatched fun b x ⟨p, _, _, hx⟩ => hx ▸ rfl

end Planned

end Rollout
