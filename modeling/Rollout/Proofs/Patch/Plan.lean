import Rollout.Proofs.Patch.Change

/-!
# Proofs/Patch/Plan — every running server undergoes one change

`release` and `occupySlots` go through the running list one server at a time.  The invariant of
both loops is the same pairing: each server stands beside its successor, related by `Change` along
the actions sent to it so far.  `release` establishes it (`release_changes`), every filled slot
extends it (`occupySlot_changes`), and `planBackend_spec` collects what the whole plan does.
-/

namespace Rollout

/-! ## Finding and erasing -/

/-- The first element that satisfies `p` comes to the front when it is erased. -/
theorem perm_cons_eraseP {α : Type} {p : α → Bool} {a : α} : ∀ {l : List α},
    l.find? p = some a → l.Perm (a :: l.eraseP p)
  | b :: l, h => by
      cases hb : p b with
      | true =>
        rw [List.find?_cons_of_pos hb, Option.some.injEq] at h
        rw [List.eraseP_cons_of_pos hb, h]
      | false =>
        rw [List.find?_cons_of_neg (by simp [hb])] at h
        rw [List.eraseP_cons_of_neg (by simp [hb])]
        exact ((perm_cons_eraseP h).cons b).trans (List.Perm.swap a b _)

/-- Where a server listens. -/
abbrev Server.place (s : Server) : String × UInt16 := (s.ip, s.port)

theorem Server.sameTarget_iff_place {s t : Server} : s.sameTarget t = true ↔ s.place = t.place := by
  rw [sameTarget_iff, Prod.mk.injEq]

/-! ## Keeping and emptying -/

section Release

variable {backend : String}

/-- A command of `release` goes to a running server. -/
theorem mem_commands_release {running wanted : List Server} :
    ∀ c ∈ (release backend running wanted).commands,
      c.backend = backend ∧ c.server ∈ running.map (·.name) := by
  fun_induction release backend running wanted with
  | case1 => exact fun _ h => nomatch h
  | case2 s rest wanted he t hf r hw ih | case5 s rest wanted he r ih =>
    exact fun c hc => ⟨(ih c hc).1, List.mem_cons_of_mem _ (ih c hc).2⟩
  | case3 s rest wanted he t hf r hw ih | case4 s rest wanted he hf r ih =>
    intro c hc
    rcases List.mem_cons.mp hc with rfl | hc
    · exact ⟨rfl, List.mem_cons_self⟩
    · exact ⟨(ih c hc).1, List.mem_cons_of_mem _ (ih c hc).2⟩

/-- What stays wanted was wanted. -/
theorem wanted_release_sublist {running wanted : List Server} :
    (release backend running wanted).wanted.Sublist wanted := by
  fun_induction release backend running wanted with
  | case1 => exact List.Sublist.refl _
  | case2 _ _ _ _ _ _ _ _ ih | case3 _ _ _ _ _ _ _ _ ih => exact ih.trans List.eraseP_sublist
  | case4 _ _ _ _ _ _ ih | case5 _ _ _ _ _ ih => exact ih

/-- **Nothing that stays wanted listens where an enabled server runs** — it would have been matched
with that server. -/
theorem not_sameTarget_of_mem_wanted {running wanted : List Server}
    (hplaces : (wanted.map Server.place).Nodup) :
    ∀ w ∈ (release backend running wanted).wanted, ∀ s ∈ running, s.enabled = true →
      s.sameTarget w = false := by
  fun_induction release backend running wanted with
  | case1 => exact fun _ _ _ h => nomatch h
  | case2 s rest wanted he t hf r hw ih | case3 s rest wanted he t hf r hw ih =>
    have hperm := (perm_cons_eraseP hf).map Server.place
    obtain ⟨hnew, hrest⟩ := List.nodup_cons.mp (hperm.nodup_iff.mp hplaces)
    intro w hw' s' hs'
    rcases List.mem_cons.mp hs' with rfl | hs'
    · intro _
      rw [← Bool.not_eq_true, Server.sameTarget_iff_place]
      intro heq
      have hfound := Server.sameTarget_iff_place.mp (List.find?_some hf)
      refine hnew (List.mem_map.mpr ⟨w, wanted_release_sublist.subset hw', ?_⟩)
      exact heq.symm.trans hfound
    · exact ih hrest w hw' s' hs'
  | case4 s rest wanted he hf r ih =>
    intro w hw s' hs'
    rcases List.mem_cons.mp hs' with rfl | hs'
    · intro _
      rw [← Bool.not_eq_true]
      exact List.find?_eq_none.mp hf w (wanted_release_sublist.subset hw)
    · exact ih hplaces w hw s' hs'
  | case5 s rest wanted he r ih =>
    intro w hw s' hs'
    rcases List.mem_cons.mp hs' with rfl | hs'
    · exact fun h => absurd h he
    · exact ih hplaces w hw s' hs'

/-- What traffic sees of a list of servers. -/
abbrev liveServers (servers : List Server) : List LiveServer :=
  (servers.filter (·.enabled)).map Server.live

theorem liveServers_cons_of_enabled {s : Server} (h : s.enabled = true) (rest : List Server) :
    liveServers (s :: rest) = s.live :: liveServers rest := by
  rw [liveServers, List.filter_cons_of_pos h, List.map_cons]

theorem liveServers_cons_of_disabled {s : Server} (h : s.enabled = false) (rest : List Server) :
    liveServers (s :: rest) = liveServers rest := by
  rw [liveServers, List.filter_cons_of_neg (by rw [h]; decide)]

/-- **Every wanted server either runs already or stays wanted.** -/
theorem live_release_perm {running wanted : List Server} :
    (liveServers (release backend running wanted).running
        ++ (release backend running wanted).wanted.map Server.live).Perm
      (wanted.map Server.live) := by
  fun_induction release backend running wanted with
  | case1 => exact List.Perm.refl _
  | case2 s rest wanted he t hf r hw ih =>
    rw [liveServers_cons_of_enabled he, Server.live_eq_of_sameTarget (List.find?_some hf) hw]
    exact (ih.cons _).trans ((perm_cons_eraseP hf).map Server.live).symm
  | case3 s rest wanted he t hf r hw ih =>
    have hlive : ({ s with weight := t.weight } : Server).live = t.live :=
      Server.live_eq_of_sameTarget (List.find?_some hf) rfl
    rw [liveServers_cons_of_enabled (s := { s with weight := t.weight }) he, hlive]
    exact (ih.cons _).trans ((perm_cons_eraseP hf).map Server.live).symm
  | case4 s rest wanted he hf r ih =>
    rw [liveServers_cons_of_disabled rfl]
    exact ih
  | case5 s rest wanted he r ih =>
    rw [liveServers_cons_of_disabled (Bool.not_eq_true _ ▸ he)]
    exact ih

/-- **The servers of a list, each beside its successor**, changed by the commands to it. -/
abbrev Changes (wanted added : List Server) (backend : String) (cs : List ServerCommand) :
    List Server → List Server → Prop :=
  List.Forall₂ fun s t => Change wanted added s (actionsAt backend s.name cs) t

/-- Only the actions on each server matter. -/
theorem Changes.congr {wanted added l r : List Server} {cs ds : List ServerCommand}
    (h : Changes wanted added backend cs l r)
    (heq : ∀ s ∈ l, actionsAt backend s.name ds = actionsAt backend s.name cs) :
    Changes wanted added backend ds l r :=
  List.Forall₂.imp (fun s t hst => by rw [hst.1]; exact hst.2)
    ((List.forall₂_and_left ..).mpr ⟨heq, h⟩)

/-- **Slots keep their names and their order.** -/
theorem Changes.names_eq {wanted added l r : List Server} {cs : List ServerCommand}
    (h : Changes wanted added backend cs l r) : r.map (·.name) = l.map (·.name) := by
  induction h with
  | nil => rfl
  | cons hst _ ih => rw [List.map_cons, List.map_cons, hst.name_eq, ih]

/-- A command to a server outside the list changes nothing in it. -/
theorem Changes.cons_command {wanted added l r : List Server} {cs : List ServerCommand}
    {name : String} {a : ServerAction} (hnew : name ∉ l.map (·.name))
    (h : Changes wanted added backend cs l r) :
    Changes wanted added backend (⟨backend, name, a⟩ :: cs) l r :=
  h.congr fun s hs =>
    actionsAt_cons_of_ne (fun heq => hnew (List.mem_map.mpr ⟨s, hs, heq.symm⟩)) a cs

/-- Commands to later servers come on top of a head, whose name they do not carry. -/
theorem actionsAt_of_head {s : Server} {rest : List Server} {cs : List ServerCommand}
    (hnew : s.name ∉ rest.map (·.name))
    (hcs : ∀ c ∈ cs, c.backend = backend ∧ c.server ∈ rest.map (·.name)) :
    actionsAt backend s.name cs = [] :=
  actionsAt_eq_nil fun c hc h => hnew (h ▸ (hcs c hc).2)

/-- **`release` changes every server in one of four ways.** -/
theorem release_changes {wanted₀ added : List Server} {running wanted : List Server}
    (hsub : wanted ⊆ wanted₀) (hnames : (running.map (·.name)).Nodup) :
    Changes wanted₀ added backend (release backend running wanted).commands running
      (release backend running wanted).running := by
  fun_induction release backend running wanted with
  | case1 => exact .nil
  | case2 s rest wanted he t hf r hw ih =>
    obtain ⟨hnew, hrest⟩ := List.nodup_cons.mp hnames
    refine .cons ?_ (ih (fun _ h => hsub (List.mem_of_mem_eraseP h)) hrest)
    rw [actionsAt_of_head hnew mem_commands_release]
    exact .kept t he (hsub (List.mem_of_find?_eq_some hf)) (List.find?_some hf) hw
  | case3 s rest wanted he t hf r hw ih =>
    obtain ⟨hnew, hrest⟩ := List.nodup_cons.mp hnames
    refine .cons ?_
      (Changes.cons_command hnew (ih (fun _ h => hsub (List.mem_of_mem_eraseP h)) hrest))
    rw [actionsAt_cons_self, actionsAt_of_head hnew mem_commands_release]
    exact .reweighed t he (hsub (List.mem_of_find?_eq_some hf)) (List.find?_some hf) hw
  | case4 s rest wanted he hf r ih =>
    obtain ⟨hnew, hrest⟩ := List.nodup_cons.mp hnames
    refine .cons ?_ (Changes.cons_command hnew (ih hsub hrest))
    rw [actionsAt_cons_self, actionsAt_of_head hnew mem_commands_release]
    exact .emptied he
  | case5 s rest wanted he r ih =>
    obtain ⟨hnew, hrest⟩ := List.nodup_cons.mp hnames
    refine .cons ?_ (ih hsub hrest)
    rw [actionsAt_of_head hnew mem_commands_release]
    exact .idle (Bool.not_eq_true _ ▸ he)

end Release

/-! ## Filling slots -/

section Occupy

variable {backend : String}

/-- **A slot is found among the running servers**, whose names stay, and the server put into it
takes traffic. -/
theorem occupySlot_spec {w : Server} {running running' : List Server} {slot : String}
    (h : occupySlot w running = some (slot, running')) :
    slot ∈ running.map (·.name) ∧ running'.map (·.name) = running.map (·.name) ∧
      (liveServers running').Perm (w.live :: liveServers running) := by
  fun_induction occupySlot w running generalizing slot running' with
  | case1 => exact nomatch h
  | case2 t rest ht =>
    obtain ⟨rfl, rfl⟩ := Prod.mk.inj (Option.some.inj h)
    refine ⟨List.mem_cons_self, rfl, ?_⟩
    have ht' : t.enabled = false := by simpa [Server.isSlot] using ht
    rw [liveServers_cons_of_enabled rfl, liveServers_cons_of_disabled ht']
    exact List.Perm.refl _
  | case3 t rest ht ih =>
    obtain ⟨⟨slot', rest'⟩, hr, heq⟩ := Option.map_eq_some_iff.mp h
    obtain ⟨rfl, rfl⟩ := Prod.mk.inj heq
    obtain ⟨hmem, hnames, hlive⟩ := ih hr
    refine ⟨List.mem_cons_of_mem _ hmem, congrArg (t.name :: ·) hnames, ?_⟩
    have ht' : t.enabled = true := by simpa [Server.isSlot] using ht
    rw [liveServers_cons_of_enabled ht', liveServers_cons_of_enabled ht']
    exact (hlive.cons _).trans (List.Perm.swap ..)

/-- The commands that fill a slot go to it. -/
theorem actionsAt_occupyCommands_self (slot : String) (w : Server) :
    actionsAt backend slot (occupyCommands backend slot w) = occupyActions w := by
  simp [occupyCommands, actionsAt_cons_self, occupyActions]

theorem actionsAt_occupyCommands_of_ne {slot server : String} (h : slot ≠ server) (w : Server) :
    actionsAt backend server (occupyCommands backend slot w) = [] := by
  simp [occupyCommands, actionsAt_cons_of_ne h]

/-- **One more filled slot is one more change**, of a server that was idle or emptied. -/
theorem occupySlot_changes {wanted added l r r' : List Server} {w : Server} {slot : String}
    {cs : List ServerCommand} (hnames : (l.map (·.name)).Nodup)
    (h : Changes wanted added backend cs l r) (hw : w ∈ added)
    (hslot : occupySlot w r = some (slot, r')) :
    Changes wanted added backend (cs ++ occupyCommands backend slot w) l r' := by
  induction h generalizing slot r' with
  | nil => exact nomatch hslot
  | @cons s t l r hst hrest ih =>
    obtain ⟨hnew, hnames⟩ := List.nodup_cons.mp hnames
    cases ht : t.enabled with
    | false =>
      rw [occupySlot, if_pos (by rw [Server.isSlot, ht]; rfl), Option.some.injEq,
        Prod.mk.injEq] at hslot
      obtain ⟨rfl, rfl⟩ := hslot
      have hself :
          actionsAt backend s.name (occupyCommands backend t.name w) = occupyActions w := by
        rw [hst.name_eq, actionsAt_occupyCommands_self]
      refine .cons ?_ (Changes.congr hrest fun s' hs' => ?_)
      · rw [actionsAt_append, hself]
        exact hst.fill ht hw
      · rw [actionsAt_append, actionsAt_occupyCommands_of_ne, List.append_nil]
        rw [hst.name_eq]
        exact fun heq => hnew (List.mem_map.mpr ⟨s', hs', heq.symm⟩)
    | true =>
      rw [occupySlot, if_neg (by rw [Server.isSlot, ht]; decide)] at hslot
      obtain ⟨⟨slot', rest'⟩, hr, heq⟩ := Option.map_eq_some_iff.mp hslot
      obtain ⟨rfl, rfl⟩ := Prod.mk.inj heq
      refine .cons ?_ (ih hnames hr)
      rw [actionsAt_append, actionsAt_occupyCommands_of_ne, List.append_nil]
      · exact hst
      · rintro rfl
        exact hnew (Changes.names_eq hrest ▸ (occupySlot_spec hr).1)

/-- A command that fills a slot goes to it, and takes nothing down. -/
theorem mem_occupyCommands {slot : String} {w : Server} {c : ServerCommand}
    (h : c ∈ occupyCommands backend slot w) :
    c.backend = backend ∧ c.server = slot ∧ c.action ≠ .maintain := by
  simp only [occupyCommands, List.mem_cons, List.not_mem_nil, or_false] at h
  rcases h with rfl | rfl | rfl <;> exact ⟨rfl, rfl, nofun⟩

/-- **The commands that fill slots**: those to one slot for each wanted server, in order. -/
theorem occupySlots_commands {wanted running servers : List Server}
    {commands : List ServerCommand}
    (h : occupySlots backend wanted running = some (servers, commands)) :
    ∃ slots : List String, slots.length = wanted.length ∧ slots ⊆ running.map (·.name) ∧
      commands = (slots.zip wanted).flatMap fun p => occupyCommands backend p.1 p.2 := by
  fun_induction occupySlots backend wanted running generalizing servers commands with
  | case1 running =>
    obtain ⟨-, rfl⟩ := Prod.mk.inj (Option.some.inj h)
    exact ⟨[], rfl, List.nil_subset _, rfl⟩
  | case2 => exact nomatch h
  | case3 s rest running slot running' hslot ih =>
    obtain ⟨r, hr, heq⟩ := Option.map_eq_some_iff.mp h
    obtain ⟨-, rfl⟩ := Prod.mk.inj heq
    obtain ⟨slots, hlength, hslots, hcommands⟩ := ih hr
    obtain ⟨hmem, hnames, -⟩ := occupySlot_spec hslot
    refine ⟨slot :: slots, congrArg (· + 1) hlength, ?_, ?_⟩
    · exact List.cons_subset.mpr ⟨hmem, hnames ▸ hslots⟩
    · rw [hcommands, List.zip_cons_cons, List.flatMap_cons]

/-- A command that fills slots goes to a running server, and takes nothing down. -/
theorem mem_commands_occupySlots {wanted running servers : List Server}
    {commands : List ServerCommand}
    (h : occupySlots backend wanted running = some (servers, commands)) :
    ∀ c ∈ commands, c.backend = backend ∧ c.server ∈ running.map (·.name) ∧
      c.action ≠ .maintain := by
  obtain ⟨slots, -, hslots, rfl⟩ := occupySlots_commands h
  intro c hc
  obtain ⟨⟨slot, w⟩, hp, hc⟩ := List.mem_flatMap.mp hc
  obtain ⟨hbackend, rfl, haction⟩ := mem_occupyCommands hc
  exact ⟨hbackend, hslots (List.of_mem_zip hp).1, haction⟩

/-- **Every added server comes to run.** -/
theorem live_occupySlots_perm {wanted running servers : List Server}
    {commands : List ServerCommand}
    (h : occupySlots backend wanted running = some (servers, commands)) :
    (liveServers servers).Perm (liveServers running ++ wanted.map Server.live) := by
  fun_induction occupySlots backend wanted running generalizing servers commands with
  | case1 running =>
    obtain ⟨rfl, -⟩ := Prod.mk.inj (Option.some.inj h)
    rw [List.map_nil, List.append_nil]
  | case2 => exact nomatch h
  | case3 s rest running slot running' hslot ih =>
    obtain ⟨r, hr, heq⟩ := Option.map_eq_some_iff.mp h
    obtain ⟨rfl, -⟩ := Prod.mk.inj heq
    calc (liveServers r.1).Perm (liveServers running' ++ rest.map Server.live) := ih hr
      _ |>.Perm (s.live :: liveServers running ++ rest.map Server.live) :=
        (occupySlot_spec hslot).2.2.append_right _
      _ |>.Perm (liveServers running ++ (s :: rest).map Server.live) := List.perm_middle.symm

/-- **Filling slots changes servers that were idle or emptied.** -/
theorem occupySlots_changes {wanted added new l r servers : List Server}
    {cs commands : List ServerCommand} (hnames : (l.map (·.name)).Nodup)
    (hnew : new ⊆ added) (h : Changes wanted added backend cs l r)
    (hslots : occupySlots backend new r = some (servers, commands)) :
    Changes wanted added backend (cs ++ commands) l servers := by
  fun_induction occupySlots backend new r generalizing cs servers commands with
  | case1 running =>
    obtain ⟨rfl, rfl⟩ := Prod.mk.inj (Option.some.inj hslots)
    rwa [List.append_nil]
  | case2 => exact nomatch hslots
  | case3 s rest running slot running' hslot ih =>
    obtain ⟨r, hr, heq⟩ := Option.map_eq_some_iff.mp hslots
    obtain ⟨rfl, rfl⟩ := Prod.mk.inj heq
    have hs := List.cons_subset.mp hnew
    rw [← List.append_assoc]
    exact ih hs.2 (occupySlot_changes hnames h hs.1 hslot) hr

end Occupy

/-! ## The plan of a backend -/

/-- The servers to be served that no running server matches. -/
def addedServers (old current : Backend) : List Server :=
  (release current.id old.servers current.enabledServers).wanted

theorem addedServers_subset (old current : Backend) :
    addedServers old current ⊆ current.enabledServers := wanted_release_sublist.subset

/-- **What the plan of one backend amounts to.** -/
structure BackendPlan.Spec (old current : Backend) (p : BackendPlan) : Prop where
  id : p.id = current.id
  /-- Commands go to running servers. -/
  targets : ∀ c ∈ p.commands, c.backend = current.id ∧ c.server ∈ old.servers.map (·.name)
  /-- No two servers are wanted at the same place. -/
  places : (current.enabledServers.map Server.place).Nodup
  /-- Every running server undergoes one change. -/
  changes : Changes current.enabledServers (addedServers old current) current.id p.commands
    old.servers p.servers
  /-- The patched list serves what is wanted. -/
  live : (liveServers p.servers).Perm current.live

/-- **A plan exists if the added servers find slots**; the commands that fill them come last. -/
theorem planBackend_eq_some_iff {old current : Backend} {p : BackendPlan} :
    planBackend old current = some p ↔ (current.enabledServers.map Server.place).Nodup ∧
      ∃ servers commands, occupySlots current.id (addedServers old current)
          (release current.id old.servers current.enabledServers).running
            = some (servers, commands) ∧
        p = ⟨current.id, servers,
          (release current.id old.servers current.enabledServers).commands ++ commands⟩ := by
  rw [planBackend]
  split_ifs with hplaces
  · rw [Option.map_eq_some_iff]
    exact ⟨fun ⟨⟨servers, commands⟩, hslots, hp⟩ => ⟨hplaces, servers, commands, hslots, hp.symm⟩,
      fun ⟨_, servers, commands, hslots, hp⟩ => ⟨(servers, commands), hslots, hp.symm⟩⟩
  · exact iff_of_false nofun fun h => hplaces h.1

/-- **A plan says how every running server changes.** -/
theorem planBackend_spec {old current : Backend} {p : BackendPlan}
    (hnames : (old.servers.map (·.name)).Nodup) (h : planBackend old current = some p) :
    p.Spec old current := by
  obtain ⟨hplaces, servers, commands, hslots, rfl⟩ := planBackend_eq_some_iff.mp h
  have hchanges : Changes current.enabledServers (addedServers old current) current.id
      (release current.id old.servers current.enabledServers).commands old.servers
      (release current.id old.servers current.enabledServers).running :=
    release_changes (List.Subset.refl _) hnames
  refine ⟨rfl, fun c hc => ?_, hplaces, ?_, ?_⟩
  · rcases List.mem_append.mp hc with hc | hc
    · exact mem_commands_release c hc
    · obtain ⟨hbackend, hserver, -⟩ := mem_commands_occupySlots hslots c hc
      exact ⟨hbackend, hchanges.names_eq ▸ hserver⟩
  · exact occupySlots_changes hnames (List.Subset.refl _) hchanges hslots
  · exact (live_occupySlots_perm hslots).trans live_release_perm

end Rollout
