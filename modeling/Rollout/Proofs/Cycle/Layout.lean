import Rollout.Proofs.Cycle.Unfinished

/-!
# Proofs/Cycle/Layout — the slots of a run

With a positive increment every reload pads each backend to a multiple of it, and a live patch moves
servers between the slots of the process that runs.  So a previous generation that could be built is
laid out in full multiples under sound and distinct names (`Generation.LaidOut`), and the cycles that
do not reload keep the names (`Generation.KeepsNames`).  A live patch keeps to this only because the
generation it starts from does: the invariant of a run is that the previous generation is unfinished
or laid out (`Situation.LaidOut`).
-/

namespace Rollout

variable {s : CycleSettings} {k : Nat}

/-- **A backend in full multiples of the increment**, its servers under sound and distinct names. -/
structure Backend.LaidOut (k : Nat) (b : Backend) : Prop where
  pos : 0 < b.servers.length
  dvd : k ∣ b.servers.length
  nodup : (b.servers.map (·.name)).Nodup
  sound : ∀ name ∈ b.servers.map (·.name), SoundName name

/-- **A built generation whose backends are laid out.** -/
structure Generation.LaidOut (k : Nat) (g : Generation) : Prop where
  isBuilt : g.IsBuilt
  backends : ∀ b ∈ g.backends, b.LaidOut k

/-- **Every backend has the server names of before**, where `same` says when two lists of them
count as the same. -/
structure Generation.KeepsNames (same : List String → List String → Prop)
    (old new : Generation) : Prop where
  ids : (new.backends.map (·.id)).Perm (old.backends.map (·.id))
  names : ∀ x ∈ new.backends, ∃ o ∈ old.backends,
    o.id = x.id ∧ same (x.servers.map (·.name)) (o.servers.map (·.name))

/-- A sound backend is laid out as soon as its length is right. -/
theorem Backend.Sound.laidOut {b : Backend} (h : b.Sound) (hpos : 0 < b.servers.length)
    (hdvd : k ∣ b.servers.length) : b.LaidOut k where
  pos := hpos
  dvd := hdvd
  nodup := h.names
  sound name hname := by
    obtain ⟨t, ht, rfl⟩ := List.mem_map.mp hname
    exact (h.servers t ht).name

namespace Generation

variable {g old : Generation}

/-- **Padding lays a generation out.** -/
theorem IsBuilt.laidOut_pad (hg : g.IsBuilt) (hk : 0 < k) :
    (g.mapBackends (Backend.pad k)).LaidOut k where
  isBuilt := hg.pad k
  backends x hx := by
    obtain ⟨b, -, rfl⟩ := List.mem_map.mp hx
    refine ((hg.pad k).sound _ hx).laidOut ?_ ?_ <;> rw [b.length_pad k hk]
    · exact roundUp_pos hk _
    · exact dvd_roundUp k _

/-- **Ordering keeps the layout.** -/
theorem LaidOut.arrange (h : g.LaidOut k) (s : CycleSettings) : (s.arrange g).LaidOut k where
  isBuilt := h.isBuilt.arrange s
  backends x hx := by
    have hsound := (h.isBuilt.arrange s).sound x hx
    rw [CycleSettings.arrange] at hx
    split_ifs at hx
    · obtain ⟨b, hb, rfl⟩ := List.mem_map.mp hx
      have hlength := b.servers_sortServers_perm.length_eq
      exact hsound.laidOut (hlength ▸ (h.backends b hb).pos) (hlength ▸ (h.backends b hb).dvd)
    · exact h.backends x hx

theorem KeepsNames.refl {same : List String → List String → Prop} (hsame : ∀ l, same l l)
    (g : Generation) : g.KeepsNames same g where
  ids := .refl _
  names x hx := ⟨x, hx, rfl, hsame _⟩

/-- **Ordering keeps the names**, though not their order. -/
theorem KeepsNames.arrange (h : old.KeepsNames Eq g) (s : CycleSettings) :
    old.KeepsNames (if s.sortBackends then List.Perm else Eq) (s.arrange g) := by
  rw [CycleSettings.arrange]
  split_ifs with hsort
  · refine ⟨?_, fun x hx => ?_⟩
    · have hids : (g.mapBackends Backend.sortServers).backends.map (·.id)
          = g.backends.map (·.id) := List.map_map
      rw [hids]
      exact h.ids
    · obtain ⟨b, hb, rfl⟩ := List.mem_map.mp hx
      obtain ⟨o, ho, hid, hnames⟩ := h.names b hb
      exact ⟨o, ho, hid, hnames ▸ b.servers_sortServers_perm.map _⟩
  · exact h

end Generation

/-! ## A live patch -/

namespace Planned

variable {old current : Generation} {plans : List BackendPlan}

/-- **A live patch keeps the names in place.** -/
theorem keepsNames (h : Planned old current plans) :
    old.KeepsNames Eq (adoptPlans plans current) where
  ids := by
    have hids : (adoptPlans plans current).backends.map (·.id) = current.backends.map (·.id) :=
      map_eq_of_forall₂ h.forall₂_patched fun b x ⟨p, _, _, hx⟩ => hx ▸ rfl
    rw [hids]
    exact (h.builtOld.sameBackendIds_iff_perm h.built).mp (planPatch_eq_some_iff.mp h.planned).2.1
  names x hx := by
    obtain ⟨b, hb, p, -, ⟨o, ho, hid, hspec⟩, rfl⟩ := forall₂_mem_right h.forall₂_patched x hx
    exact ⟨o, ho, hid, hspec.changes.names_eq⟩

/-- **A live patch keeps the layout of the generation it starts from.** -/
theorem laidOut (h : Planned old current plans) (hold : old.LaidOut k) :
    (adoptPlans plans current).LaidOut k where
  isBuilt := h.isBuilt_adoptPlans
  backends x hx := by
    obtain ⟨o, ho, -, hnames⟩ := h.keepsNames.names x hx
    have hlength : x.servers.length = o.servers.length := by
      simpa using congrArg List.length hnames
    exact (h.isBuilt_adoptPlans.sound x hx).laidOut (hlength ▸ (hold.backends o ho).pos)
      (hlength ▸ (hold.backends o ho).dvd)

end Planned

/-! ## Runs -/

/-- **The invariant of a run**: the previous generation is unfinished or laid out. -/
def Situation.LaidOut (k : Nat) (st : Situation) : Prop :=
  ∀ old, st.inst.previous = some old → old.IsUnfinished ∨ old.LaidOut k

theorem Situation.LaidOut.honest {st : Situation} (h : st.LaidOut k) : st.Honest := fun old hold =>
  (h old hold).elim Generation.IsUnfinished.honest fun hlaid => hlaid.isBuilt.honest

/-- A generation with the routing of a built one is laid out. -/
theorem Situation.LaidOut.of_sameRouting {st : Situation} (h : st.LaidOut k)
    {old built : Generation} (hold : st.inst.previous = some old) (hbuilt : built.IsBuilt)
    (hrouting : built.sameRouting old = true) : old.LaidOut k :=
  (h old hold).resolve_left fun hunfinished => hunfinished.not_sameRouting hbuilt hrouting

/-- **An attempt to patch lays the generation out**: a patch that went through from the layout of
the previous one, the others by padding. -/
theorem Attempt.laidOut {st : Situation} {channel : Option Answers} {built : Generation} {w : World}
    {r : (PatchResult × Generation) × World} (hk : 0 < k)
    (h : Attempt channel k st.inst.previous built w r) (hst : st.LaidOut k)
    (hbuilt : built.IsBuilt) :
    r.1.2.LaidOut k ∧ ∀ n, r.1.1 = .applied n →
      ∃ old, st.inst.previous = some old ∧ old.KeepsNames Eq r.1.2 := by
  cases h with
  | applied old plans before planned =>
    have hplanned := planned_of_honest (hst.honest old before) hbuilt planned
    have hold := hst.of_sameRouting before hbuilt (planPatch_eq_some_iff.mp planned).1
    exact ⟨hplanned.laidOut hold, fun _ _ => ⟨old, before, hplanned.keepsNames⟩⟩
  | refused | silent => exact ⟨hbuilt.laidOut_pad hk, nofun⟩

/-- **A cycle that comes as far as comparing leaves a generation that is laid out**, and one that
does not reload keeps the names. -/
theorem cycle_laidOut (hk : 0 < k) {x : CycleInput} {st : Situation} (hst : st.LaidOut k)
    (hbusy : (cycle s k x st).1.outcome.isIdle = false) :
    ∃ old, (cycle s k x st).2.inst.previous = some old ∧ old.LaidOut k ∧
      ((cycle s k x st).1.outcome = .unchanged ∨
          (∃ n, (cycle s k x st).1.outcome = .appliedLive n) →
        ∃ earlier, st.inst.previous = some earlier ∧
          earlier.KeepsNames (if s.sortBackends then List.Perm else Eq) old) := by
  have hspec := cycle_spec s k x st hst.honest
  generalize (cycle s k x st).1.outcome = outcome, (cycle s k x st).2 = st' at hspec hbusy ⊢
  cases hspec with
  | empty => exact nomatch hbusy
  | ended pending g outcome ticks w given prepared =>
    cases prepared with
    | failed => exact nomatch hbusy
    | unchanged built old isBuilt state before serves =>
      rw [Generation.adoptServers_eq serves]
      have hold := hst.of_sameRouting before isBuilt (serves_iff.mp serves).1
      refine ⟨old, rfl, hold, fun _ => ⟨old, before, .refl (fun l => ?_) old⟩⟩
      split_ifs
      · exact .refl l
      · rfl
    | writeFailed built patched result w' ticks error compared attempt =>
      have hlaid := (attempt.laidOut hk hst compared.isBuilt).1
      exact ⟨_, rfl, hlaid.arrange s, by rintro (h | ⟨n, h⟩) <;> exact nomatch h⟩
  | finished pending g result ticks w given prepared =>
    have finish {built patched : Generation} {w' : World}
        (compared : Compared st.inst.previous pending built)
        (attempt : Attempt x.surroundings.channel k st.inst.previous built st.world
          ((result, patched), w')) : (s.arrange patched).LaidOut k ∧
        ((x.surroundings.finished s w result).1 = .unchanged ∨
            (∃ n, (x.surroundings.finished s w result).1 = .appliedLive n) →
          ∃ earlier, st.inst.previous = some earlier ∧
            earlier.KeepsNames (if s.sortBackends then List.Perm else Eq) (s.arrange patched)) := by
      obtain ⟨hlaid, hnames⟩ := attempt.laidOut hk hst compared.isBuilt
      refine ⟨hlaid.arrange s, ?_⟩
      rintro (h | ⟨n, h⟩)
      · exact absurd h (x.surroundings.finished_ne_unchanged s w result)
      · obtain ⟨earlier, hearlier, hkeeps⟩ := hnames n (Surroundings.eq_applied_of_finished h)
        exact ⟨earlier, hearlier, hkeeps.arrange s⟩
    cases prepared with
    | settled built patched w' compared attempt => exact ⟨_, rfl, finish compared attempt⟩
    | written built patched result w' ticks compared attempt =>
      exact ⟨_, rfl, finish compared attempt⟩

/-- **The previous generation of a run is unfinished or laid out.** -/
theorem run_laidOut (s : CycleSettings) (hk : 0 < k) (w : World) (xs : List CycleInput) :
    (run s k xs (.fresh w)).LaidOut k := by
  refine run_induction (fun x st (_ : True) hst => ?_) (fun _ _ => trivial) nofun
  cases hidle : (cycle s k x st).1.outcome.isIdle with
  | true =>
    obtain ⟨-, ⟨-, hsame⟩ | ⟨old, hold, hunfinished⟩⟩ := idle_cycle hst.honest hidle
    · exact fun old hold => hst old (hsame ▸ hold)
    · exact fun old' hold' => Or.inl (Option.some.inj (hold.symm.trans hold') ▸ hunfinished)
  | false =>
    obtain ⟨old, hold, hlaid, -⟩ := cycle_laidOut hk hst hidle
    exact fun old' hold' => Or.inr (Option.some.inj (hold.symm.trans hold') ▸ hlaid)

/-- **The slots stay laid out over whole runs.**  After every cycle that neither had nothing to do
nor failed to build, each backend of the previous generation has a positive multiple of the increment
of servers, under names that are sound and distinct.  If the cycle ended unchanged or patched, these
are the names that the generation before had, in the same order unless the cycle orders servers. -/
theorem run_keeps_slot_layout (s : CycleSettings) (hk : 0 < k) (w : World) (xs : List CycleInput)
    (x : CycleInput) (hbusy : (cycle s k x (run s k xs (.fresh w))).1.outcome.isIdle = false) :
    let before := run s k xs (.fresh w)
    let r := cycle s k x before
    ∃ old, r.2.inst.previous = some old ∧ (∀ b ∈ old.backends, b.LaidOut k) ∧
      (r.1.outcome = .unchanged ∨ (∃ n, r.1.outcome = .appliedLive n) →
        ∃ earlier, before.inst.previous = some earlier ∧
          earlier.KeepsNames (if s.sortBackends then List.Perm else Eq) old) := by
  obtain ⟨old, hold, hlaid, hnames⟩ := cycle_laidOut hk (run_laidOut s hk w xs) hbusy
  exact ⟨old, hold, hlaid.backends, hnames⟩

/-- Three servers are padded to four, and a patch of five commands keeps their names. -/
theorem run_keeps_slot_layout_rollout :
    let before := run {} 4 [⟨some beforeRollout, {}⟩] (.fresh {})
    let r := cycle {} 4 ⟨some afterRollout, { channel := some fun _ _ => .ok "" }⟩ before
    r.1.outcome = .appliedLive 5 ∧
      ∃ old, r.2.inst.previous = some old ∧ (∀ b ∈ old.backends, b.LaidOut 4) ∧
        ∃ earlier, before.inst.previous = some earlier ∧ earlier.KeepsNames Eq old := by
  intro before r
  have houtcome : r.1.outcome = .appliedLive 5 := by decide +kernel
  obtain ⟨old, hold, hlaid, hnames⟩ := run_keeps_slot_layout {} (by decide : 0 < 4) {}
    [⟨some beforeRollout, {}⟩] ⟨some afterRollout, { channel := some fun _ _ => .ok "" }⟩
    (congrArg Outcome.isIdle houtcome)
  exact ⟨houtcome, old, hold, hlaid, hnames (Or.inr ⟨5, houtcome⟩)⟩

end Rollout
