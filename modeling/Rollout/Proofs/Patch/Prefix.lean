import Rollout.Proofs.Patch.Live

/-!
# Proofs/Patch/Prefix — every prefix of a live patch is safe

The proxy may refuse any command, and what was accepted before stays.  So a plan has to be safe at
every point: a server takes traffic only where, and only as heavy as, one of the two generations
asks for (`Change.live_of_ready`), and a place that both ask for is never given up
(`Change.stays_ready`).
-/

namespace Rollout

/-- A prefix of the commands is a prefix on every server. -/
theorem actionsAt_prefix {cs ds : List ServerCommand} (h : cs <+: ds) (backend server : String) :
    actionsAt backend server cs <+: actionsAt backend server ds :=
  (h.filter _).map _

/-- **A slot is out of traffic until it has its address and its weight.** -/
theorem RunningServer.live_of_ready_occupyActions {r : RunningServer} {w : Server}
    {as : List ServerAction} (hr : r.ready = false) (has : as <+: occupyActions w)
    (hready : (r.after as).ready = true) : (r.after as).live = w.live := by
  rw [← List.mem_inits] at has
  simp only [occupyActions, List.inits, List.map_cons, List.map_nil, List.mem_cons,
    List.not_mem_nil, or_false] at has
  rcases has with rfl | rfl | rfl | rfl
  · exact absurd (hr.symm.trans hready) Bool.false_ne_true
  · exact absurd (hr.symm.trans hready) Bool.false_ne_true
  · exact absurd (hr.symm.trans hready) Bool.false_ne_true
  · rfl

namespace Change

variable {wanted added : List Server} {s t : Server} {as as' : List ServerAction}
  {r : RunningServer} {backend : String}

/-- **Whatever takes traffic during a change ran before or is wanted.** -/
theorem live_of_ready (h : Change wanted added s as t) (hsub : added ⊆ wanted)
    (hr : r.Runs backend s) (has : as' <+: as) (hready : (r.after as').ready = true) :
    (s.enabled = true ∧ (r.after as').live = s.live) ∨
      ∃ w ∈ wanted, (r.after as').live = w.live := by
  have hbefore : r.ready = true → s.enabled = true ∧ r.live = s.live := fun hready =>
    have he := hr.ready.symm.trans hready
    ⟨he, hr.live he⟩
  cases h with
  | kept | idle =>
    obtain rfl := List.prefix_nil.mp has
    exact Or.inl (hbefore hready)
  | reweighed w enabled mem target =>
    rcases List.prefix_cons_iff.mp has with rfl | ⟨rest, rfl, hrest⟩
    · exact Or.inl (hbefore hready)
    · obtain rfl := List.prefix_nil.mp hrest
      obtain ⟨hip, hport, -⟩ := LiveServer.mk.inj (hr.live enabled)
      obtain ⟨hip', hport'⟩ := Server.sameTarget_iff.mp target
      refine Or.inr ⟨w, mem, ?_⟩
      exact LiveServer.mk.injEq .. ▸ ⟨hip.trans hip', hport.trans hport', rfl⟩
  | emptied =>
    rcases List.prefix_cons_iff.mp has with rfl | ⟨rest, rfl, hrest⟩
    · exact Or.inl (hbefore hready)
    · obtain rfl := List.prefix_nil.mp hrest
      exact nomatch hready
  | filled w disabled mem =>
    exact Or.inr ⟨w, hsub mem,
      RunningServer.live_of_ready_occupyActions (hr.ready.trans disabled) has hready⟩
  | replaced w enabled mem =>
    rcases List.prefix_cons_iff.mp has with rfl | ⟨rest, rfl, hrest⟩
    · exact Or.inl (hbefore hready)
    · refine Or.inr ⟨w, hsub mem, ?_⟩
      exact RunningServer.live_of_ready_occupyActions (r := r.act .maintain) rfl hrest hready

/-- **A server that keeps its place takes traffic there throughout.** -/
theorem stays_ready (h : Change wanted added s as t) (ht : t.enabled = true)
    (hplace : ∀ w ∈ added, t.place ≠ w.place) (hr : r.Runs backend s) (has : as' <+: as) :
    (r.after as').ready = true ∧ ((r.after as').ip, (r.after as').port) = t.place := by
  have hbefore : s.enabled = true → r.ready = true ∧ (r.ip, r.port) = s.place := fun he => by
    obtain ⟨hip, hport, -⟩ := LiveServer.mk.inj (hr.live he)
    exact ⟨hr.ready.trans he, Prod.ext hip hport⟩
  cases h with
  | kept _ enabled =>
    obtain rfl := List.prefix_nil.mp has
    exact hbefore enabled
  | reweighed _ enabled =>
    rcases List.prefix_cons_iff.mp has with rfl | ⟨rest, rfl, hrest⟩
    · exact hbefore enabled
    · obtain rfl := List.prefix_nil.mp hrest
      exact hbefore enabled
  | emptied => exact nomatch ht
  | idle disabled => exact nomatch disabled.symm.trans ht
  | filled w _ mem | replaced w _ mem => exact absurd rfl (hplace w mem)

end Change

/-! ## Safe tables -/

/-- **A table that is safe to stop at** between two generations. -/
structure ServerTable.SafeBetween (t : ServerTable) (old current : Generation) : Prop where
  /-- Only what one of the generations asks for takes traffic. -/
  asked : ∀ r ∈ t, r.ready = true →
    (∃ o ∈ old.backends, o.id = r.backend ∧ r.live ∈ o.live) ∨
      ∃ b ∈ current.backends, b.id = r.backend ∧ r.live ∈ b.live
  /-- A place that both generations ask for takes traffic. -/
  served : ∀ o ∈ old.backends, ∀ b ∈ current.backends, o.id = b.id →
    ∀ s ∈ o.enabledServers, ∀ w ∈ b.enabledServers, s.ip = w.ip → s.port = w.port →
      ∃ r ∈ t, r.backend = b.id ∧ r.ready = true ∧ r.ip = w.ip ∧ r.port = w.port

/-- A table that serves the old generation is safe. -/
theorem ServerTable.Shows.safeBetween {t : ServerTable} {old : Generation} (ht : t.Shows old)
    (hold : old.IsBuilt) (current : Generation) : t.SafeBetween old current where
  asked r hr hready := by
    obtain ⟨o, ho, s, hs, hruns⟩ := ht.runs_of_mem hold hr
    have he := hruns.ready.symm.trans hready
    refine Or.inl ⟨o, ho, hruns.backend_eq.symm, ?_⟩
    exact hruns.live he ▸ List.mem_map_of_mem (List.mem_filter.mpr ⟨hs, he⟩)
  served o ho b hb hid s hs w hw hip hport := by
    obtain ⟨hs, he⟩ := List.mem_filter.mp hs
    exact ⟨_, ht.ready o ho s hs he, hid, rfl, hip, hport⟩

namespace Planned

variable {old current : Generation} {plans : List BackendPlan}

/-- **Every prefix of the planned commands is safe.** -/
theorem safeBetween (h : Planned old current plans) {t : ServerTable} (ht : t.Shows old)
    {cs : List ServerCommand} (hcs : cs <+: planCommands plans) :
    (runCommands cs t).SafeBetween old current := by
  rw [runCommands_eq_map]
  constructor
  · intro r' hr' hready
    obtain ⟨r, hr, rfl⟩ := List.mem_map.mp hr'
    obtain ⟨o, ho, s, hs, hruns⟩ := ht.runs_of_mem h.builtOld hr
    obtain ⟨b, hb, p, hp, hob, hspec, -⟩ := h.exists_plan ho
    obtain ⟨s', -, hchange⟩ := forall₂_mem_left (h.changes hp hspec) s hs
    have hpre := actionsAt_prefix hcs b.id s.name
    rw [← hob, ← hruns.actionsIn_eq] at hchange
    rw [← hob, ← hruns.actionsIn_eq, ← hruns.actionsIn_eq] at hpre
    have hbackend : (r.after (r.actionsIn cs)).backend = o.id :=
      (r.backend_after _).trans hruns.backend_eq
    rcases hchange.live_of_ready (addedServers_subset o b) hruns hpre hready with
      ⟨he, hlive⟩ | ⟨w, hw, hlive⟩
    · refine Or.inl ⟨o, ho, hbackend.symm, ?_⟩
      exact hlive ▸ List.mem_map_of_mem (List.mem_filter.mpr ⟨hs, he⟩)
    · exact Or.inr ⟨b, hb, hob.symm.trans hbackend.symm, hlive ▸ List.mem_map_of_mem hw⟩
  · intro o ho b hb hid s hs w hw hip hport
    obtain ⟨hs, he⟩ := List.mem_filter.mp hs
    obtain ⟨b', hb', p, hp, hob, hspec, -⟩ := h.exists_plan ho
    obtain rfl : b' = b := List.inj_on_of_nodup_map h.built.nodup_ids hb' hb (hob.symm.trans hid)
    -- The patched list serves `w`, and no added server does: their places were free.
    obtain ⟨s', hs', hlive⟩ := List.mem_map.mp (hspec.live.mem_iff.mpr (List.mem_map_of_mem hw))
    obtain ⟨hs', he'⟩ := List.mem_filter.mp hs'
    obtain ⟨hip', hport', -⟩ := LiveServer.mk.inj hlive
    have hadded : ∀ w' ∈ addedServers o b', s'.place ≠ w'.place := by
      intro w' hw' heq
      have hfree := not_sameTarget_of_mem_wanted hspec.places w' hw' s hs he
      rw [← Bool.not_eq_true, Server.sameTarget_iff_place] at hfree
      exact hfree ((Prod.ext (hip.trans hip'.symm) (hport.trans hport'.symm)).trans heq)
    obtain ⟨s₀, hs₀, hchange⟩ := forall₂_mem_right (h.changes hp hspec) s' hs'
    obtain ⟨r, hr, hruns⟩ := ht.exists_runs ho hs₀
    have hpre := actionsAt_prefix hcs b'.id s₀.name
    rw [← hob, ← hruns.actionsIn_eq] at hchange
    rw [← hob, ← hruns.actionsIn_eq, ← hruns.actionsIn_eq] at hpre
    obtain ⟨hready, hplace⟩ := hchange.stays_ready he' hadded hruns hpre
    obtain ⟨hrip, hrport⟩ := Prod.mk.inj hplace
    have hbackend : (r.after (r.actionsIn cs)).backend = b'.id :=
      (r.backend_after _).trans (hruns.backend_eq.trans hob)
    exact ⟨_, List.mem_map_of_mem hr, hbackend, hready, hrip.trans hip', hrport.trans hport'⟩

end Planned

/-- **Every point of a live patch is safe.**  Between two built generations, every prefix of the
planned lines turns the table of the old one into one that is safe to stop at; so however the proxy
answers, an attempt to patch leaves a safe table behind. -/
theorem live_patch_prefix_safe {old current : Generation} (hold : old.IsBuilt)
    (hcurrent : current.IsBuilt) :
    (∀ plans, planPatch old current = some plans → ∀ cs, cs <+: planCommands plans →
      (old.table.obeyAll (cs.map ServerCommand.text)).SafeBetween old current) ∧
    ∀ (channel : Option Answers) (increment : Nat) (w : World), w.servers = old.table →
      (patch (channel.map World.send) increment (some old) current w).2.servers.SafeBetween
        old current := by
  have hplanned : ∀ plans, planPatch old current = some plans → Planned old current plans :=
    fun plans hplan => ⟨hold, hcurrent, hplan⟩
  have hshows : old.table.Shows old := .table old
  constructor
  · intro plans hplan cs hcs
    rw [ServerTable.obeyAll_text _ fun c hc => (hplanned plans hplan).isPlain c (hcs.subset hc)]
    exact (hplanned plans hplan).safeBetween hshows hcs
  · intro channel increment w hw
    have hattempt : Attempt channel increment (some old) current w
        (patch (channel.map World.send) increment (some old) current w) :=
      patch_spec fun _ plans heq hplan =>
        (hplanned plans (Option.some.inj heq ▸ hplan)).isPlain
    generalize patch (channel.map World.send) increment (some old) current w = r at hattempt
    cases hattempt with
    | applied old' plans heq hplan =>
      obtain rfl := Option.some.inj heq
      exact (hplanned plans hplan).safeBetween (hw ▸ hshows) (List.prefix_refl _)
    | refused old' plans heq hplan accepted c rest split =>
      obtain rfl := Option.some.inj heq
      exact (hplanned plans hplan).safeBetween (hw ▸ hshows) ⟨c :: rest, split.symm⟩
    | silent => exact (hw ▸ hshows : w.servers.Shows old).safeBetween hold current

/-- Stopped after three of five lines, where a slot has its new address and is still out of
traffic. -/
theorem live_patch_prefix_safe_rollout :
    let stopping : Answers := fun calls line =>
      if calls.length < 3 then .ok "" else .error (.rejected line "No such server.")
    ∃ plans, planPatch beforeRollout afterRollout = some plans ∧
      (beforeRollout.table.obeyAll (((planCommands plans).take 3).map
        ServerCommand.text)).SafeBetween beforeRollout afterRollout ∧
      (patch ((some stopping).map World.send) 4 (some beforeRollout) afterRollout
        { servers := beforeRollout.table }).2.servers.SafeBetween beforeRollout afterRollout := by
  obtain ⟨plans, hplan⟩ : ∃ plans, planPatch beforeRollout afterRollout = some plans :=
    Option.isSome_iff_exists.mp (by decide +kernel)
  have hbefore : beforeRollout.IsBuilt := ⟨by decide +kernel, by decide +kernel⟩
  have hafter : afterRollout.IsBuilt := ⟨by decide +kernel, by decide +kernel⟩
  obtain ⟨hpre, hattempt⟩ := live_patch_prefix_safe hbefore hafter
  exact ⟨plans, hplan, hpre plans hplan _ (List.take_prefix 3 _), hattempt _ 4 _ rfl⟩

end Rollout
