import Rollout.Proofs.Cycle.Relist

/-!
# Proofs/Cycle/InStep — files, proxy and previous generation stay in step

As long as writing and reloading do not fail, a cycle that comes as far as comparing leaves three
things that say the same: the previous generation of the instance, the stored files and the servers
of the running proxy (`World.InStep`).  A generation that could not be built says nothing, but it
lacks an artifact.  So the invariant of a run is that a *complete* previous generation is in step
(`Situation.InStep`); refused commands do not break it, because the reload behind them starts the
proxy over.
-/

namespace Rollout

variable {s : CycleSettings} {increment : Nat}

/-! ## Generations that serve the same -/

/-- **Two generations that serve the same**: backends of the same ids, each with the same live
servers. -/
structure Generation.SameService (g h : Generation) : Prop where
  ids : (h.backends.map (·.id)).Perm (g.backends.map (·.id))
  live : ∀ b ∈ g.backends, ∃ x ∈ h.backends, x.id = b.id ∧ x.live.Perm b.live

namespace Generation.SameService

variable {f g h : Generation}

/-- **Another way to list the servers serves the same.** -/
theorem of_relists (hgh : g.Relists h) : g.SameService h where
  ids := List.Perm.of_eq <| map_eq_of_forall₂ hgh.backends fun _ _ ⟨hsettings, _⟩ =>
    (Backend.sameSettings_iff.mp hsettings).1.symm
  live b hb := by
    obtain ⟨x, hx, hsettings, hlive⟩ := forall₂_mem_left hgh.backends b hb
    exact ⟨x, hx, (Backend.sameSettings_iff.mp hsettings).1.symm, hlive.symm⟩

/-- **What the comparison finds equal serves the same.** -/
theorem of_serves (hg : g.IsBuilt) (hh : h.IsBuilt) (hserves : g.serves h = true) :
    g.SameService h := by
  obtain ⟨-, hlength, hall⟩ := serves_iff.mp hserves
  constructor
  · refine ((hh.sameBackendIds_iff_perm hg).mp ?_).symm
    refine (hh.sameBackendIds_iff_length hg fun b hb => ?_).mpr hlength
    obtain ⟨o, ho, -⟩ := hall b hb
    exact ⟨o, ho⟩
  · intro b hb
    obtain ⟨o, ho, -, hlive⟩ := hall b hb
    obtain ⟨hmem, hid⟩ := mem_of_backend?_eq_some ho
    exact ⟨o, hmem, hid, hlive.symm⟩

/-- Only the backends decide. -/
theorem of_backends_eq (hfg : f.backends = g.backends) (h' : g.SameService h) :
    f.SameService h where
  ids := hfg ▸ h'.ids
  live := hfg ▸ h'.live

end Generation.SameService

/-! ## Staying in step -/

/-- **The world is in step with a generation**: that is built, its files are stored and the proxy
serves it. -/
structure World.InStep (w : World) (g : Generation) : Prop where
  isBuilt : g.IsBuilt
  stored : w.files = some g
  shows : w.servers.Shows g

/-- **The invariant of a run**: the world is in step with a complete previous generation. -/
def Situation.InStep (st : Situation) : Prop :=
  ∀ old, st.inst.previous = some old → old.frontends.isSome = true → old.pathMaps.isSome = true →
    st.world.InStep old

theorem Situation.InStep.honest {st : Situation} (h : st.InStep) : st.Honest :=
  fun old hold hf hm => (h old hold hf hm).isBuilt

/-- Writing and reloading do not fail. -/
structure Surroundings.Reliable (e : Surroundings) : Prop where
  write : e.write = .ok ()
  reload : e.reload = .ok ()

namespace World

/-- **A world whose proxy serves a generation is in step once the files are stored**, in whatever
order they list the servers. -/
theorem InStep.of_store {w : World} {g : Generation} (hg : g.IsBuilt) (hshows : w.servers.Shows g)
    (s : CycleSettings) : (w.store (s.arrange g)).InStep (s.arrange g) where
  isBuilt := hg.arrange s
  stored := rfl
  shows := by
    rw [CycleSettings.arrange]
    split_ifs
    · exact hshows.mapBackends Backend.id_sortServers Backend.servers_sortServers_perm
    · exact hshows

/-- **A reload brings the proxy in step with the files.** -/
theorem InStep.of_restart {w : World} {g : Generation} (hg : g.IsBuilt)
    (hfiles : w.files = some g) : w.restart.InStep g where
  isBuilt := hg
  stored := hfiles
  shows := by
    have hservers : w.restart.servers = g.table := by rw [restart, hfiles, Option.map_some]; rfl
    rw [hservers]
    exact .table g

/-- A call that changes nothing. -/
theorem InStep.log {w : World} {g : Generation} (h : w.InStep g) (c : Call) : (w.log c).InStep g :=
  ⟨h.isBuilt, h.stored, h.shows⟩

end World

namespace Attempt

variable {channel : Option Answers} {previous : Option Generation} {built : Generation} {w : World}
  {r : (PatchResult × Generation) × World}

/-- **A patch that went through leaves a proxy that serves the patched generation.** -/
theorem shows (h : Attempt channel increment previous built w r) {n : Nat}
    (hprevious : ∀ old, previous = some old → old.Honest)
    (hshows : ∀ old, previous = some old → old.IsBuilt → w.servers.Shows old)
    (hbuilt : built.IsBuilt) (hresult : r.1.1 = .applied n) : r.2.servers.Shows r.1.2 := by
  cases h with
  | applied old plans before planned =>
    have hplanned := planned_of_honest (hprevious old before) hbuilt planned
    exact hplanned.shows (hshows old before hplanned.builtOld)
  | refused | silent => exact nomatch hresult

end Attempt

/-- **A cycle that leaves the world alone**: nothing was pending, or it could not be built. -/
def Outcome.isIdle : Outcome → Bool
  | .empty | .buildFailed .. => true
  | _ => false

namespace Prepares

variable {e : Surroundings} {previous : Option Generation} {pending g : Generation} {w w' : World}
  {ticks : List Tick}

/-- **A first half that ends the cycle** either fails to build and leaves the world alone, or finds
the world in step already. -/
theorem inStep_of_error {outcome : Outcome}
    (h : Prepares s increment e previous pending w (⟨g, .error outcome, ticks⟩, w'))
    (he : e.Reliable) (hprevious : (⟨{ previous }, w⟩ : Situation).InStep) :
    w' = w ∧ (((∃ phase error, outcome = .buildFailed phase error) ∧
        (g.frontends = none ∨ g.pathMaps = none)) ∨
      (outcome.isIdle = false ∧ w.InStep g ∧ pending.SameService g)) := by
  cases h with
  | failed phase error g unset => exact ⟨rfl, Or.inl ⟨⟨phase, error, rfl⟩, unset⟩⟩
  | unchanged built old isBuilt state before serves =>
    have hold : old.IsBuilt :=
      (hprevious.honest old before).isBuilt isBuilt (serves_iff.mp serves).1
    have hsame : pending.SameService old :=
      .of_backends_eq (congrArg DesiredState.backends state.symm) (.of_serves isBuilt hold serves)
    refine ⟨rfl, Or.inr ⟨rfl, ?_⟩⟩
    rw [Generation.adoptServers_eq serves]
    exact ⟨hprevious old before hold.artifacts.1 hold.artifacts.2, hsame⟩
  | writeFailed built patched result w'' ticks error compared attempt needed refused =>
    exact nomatch he.write.symm.trans refused

/-- **A first half that succeeds leads to a second half that leaves the world in step.** -/
theorem inStep_of_ok {result : PatchResult}
    (h : Prepares s increment e previous pending w (⟨g, .ok result, ticks⟩, w'))
    (he : e.Reliable) (hprevious : (⟨{ previous }, w⟩ : Situation).InStep) :
    (e.finished s w' result).1.isIdle = false ∧ (e.finished s w' result).2.InStep g ∧
      pending.SameService g := by
  have hunsettled := h.next_ne_settled hprevious.honest
  cases h with
  | settled => exact absurd rfl hunsettled
  | written built patched result w'' ticks compared attempt needed written =>
    have hbuilt := attempt.isBuilt hprevious.honest compared.isBuilt
    have hsame : pending.SameService (s.arrange patched) :=
      .of_backends_eq (congrArg DesiredState.backends compared.state.symm)
        (.of_relists ((attempt.relists hprevious.honest compared.isBuilt).arrange s))
    cases result with
    | applied n =>
      cases n with
      | zero => exact nomatch needed
      | succ n =>
        have hshows := attempt.shows hprevious.honest
          (fun old before hold => (hprevious old before hold.artifacts.1 hold.artifacts.2).shows)
          compared.isBuilt rfl
        have hstored := World.InStep.of_store hbuilt hshows s
        refine ⟨rfl, ?_, hsame⟩
        rw [Surroundings.finished]
        split_ifs
        · exact hstored.log .validate
        · exact hstored
    | reloadRequired n =>
      have hrestarted : (w''.store (s.arrange patched)).restart.InStep (s.arrange patched) :=
        .of_restart (hbuilt.arrange s) rfl
      rw [Surroundings.finished, he.reload]
      exact ⟨rfl, hrestarted, hsame⟩

end Prepares

/-! ## Runs -/

/-- **What a cycle leaves behind** when writing and reloading do not fail. -/
inductive Leaves (x : CycleInput) (st : Situation) : Outcome → Situation → Prop where
  | empty {st' : Situation} (world : st'.world = st.world)
      (previous : st'.inst.previous = st.inst.previous) : Leaves x st .empty st'
  | failed (phase : BuildPhase) (error : BuildError) (g : Generation)
      (unset : g.frontends = none ∨ g.pathMaps = none) :
      Leaves x st (.buildFailed phase error) (.rotated g st.world)
  | served {outcome : Outcome} (pending old : Generation) (w : World)
      (busy : outcome.isIdle = false) (given : x.pending = some pending) (inStep : w.InStep old)
      (same : pending.SameService old) : Leaves x st outcome (.rotated old w)

/-- **A cycle either leaves the world alone or in step.** -/
theorem cycle_leaves (s : CycleSettings) (increment : Nat) {x : CycleInput} {st : Situation}
    (hx : x.surroundings.Reliable) (h : st.InStep) :
    Leaves x st (cycle s increment x st).1.outcome (cycle s increment x st).2 := by
  have hspec := cycle_spec s increment x st h.honest
  generalize (cycle s increment x st).1.outcome = outcome, (cycle s increment x st).2 = st'
    at hspec ⊢
  cases hspec with
  | empty => exact .empty rfl rfl
  | ended pending g outcome ticks w given prepared =>
    obtain ⟨rfl, ⟨⟨phase, error, rfl⟩, hunset⟩ | ⟨hbusy, hstep, hsame⟩⟩ :=
      prepared.inStep_of_error hx h
    · exact .failed phase error g hunset
    · exact .served pending g _ hbusy given hstep hsame
  | finished pending g result ticks w given prepared =>
    obtain ⟨hbusy, hstep, hsame⟩ := prepared.inStep_of_ok hx h
    exact .served pending g _ hbusy given hstep hsame

/-- **A run keeps the world in step.** -/
theorem run_inStep (s : CycleSettings) (increment : Nat) (w : World) {xs : List CycleInput}
    (hxs : ∀ x ∈ xs, x.surroundings.Reliable) : (run s increment xs (.fresh w)).InStep := by
  refine run_induction (fun x st hx h => ?_) hxs nofun
  have hleaves := cycle_leaves s increment hx h
  generalize (cycle s increment x st).1.outcome = outcome, (cycle s increment x st).2 = st'
    at hleaves ⊢
  cases hleaves with
  | @empty st' world previous =>
    rw [Situation.InStep, previous, world]
    exact h
  | failed phase error g unset =>
    rintro old ⟨⟩ hf hm
    exact absurd unset (Generation.IsUnfinished.honest unset hf hm).not_isUnfinished
  | served pending old w busy given inStep =>
    rintro old' ⟨⟩ - -
    exact inStep

/-- **Files, proxy and previous generation stay in step over whole runs.**  A fresh instance runs
any cycles in any world, where builds, commands and validation may fail but writing and reloading
do not.  A cycle that had a buildable generation stores exactly the generation that becomes the
previous one, the proxy serves that and nothing else, and for every backend it serves what the
pending generation asked for.  The other cycles leave the world as it was, and one without a
pending generation the previous generation, too. -/
theorem run_stays_in_step (s : CycleSettings) (increment : Nat) (w : World)
    (xs : List CycleInput) (x : CycleInput) (hxs : ∀ y ∈ xs, y.surroundings.Reliable)
    (hx : x.surroundings.Reliable) :
    let before := run s increment xs (.fresh w)
    let outcome := (cycle s increment x before).1.outcome
    let after := (cycle s increment x before).2
    (outcome.isIdle = true → after.world = before.world) ∧
    (outcome = .empty → after.inst.previous = before.inst.previous) ∧
    (outcome.isIdle = false → ∃ pending old, x.pending = some pending ∧
      after.inst.previous = some old ∧ after.world.files = some old ∧
      after.world.servers.Shows old ∧
      (∀ b ∈ pending.backends, (after.world.servers.live b.id).Perm b.live) ∧
      ∀ r ∈ after.world.servers, ∃ b ∈ pending.backends, b.id = r.backend) := by
  intro before outcome after
  have hleaves : Leaves x before outcome after :=
    cycle_leaves s increment hx (run_inStep s increment w hxs)
  generalize outcome = outcome, after = after at hleaves ⊢
  cases hleaves with
  | empty world previous => exact ⟨fun _ => world, fun _ => previous, nofun⟩
  | failed => exact ⟨fun _ => rfl, nofun, nofun⟩
  | served pending old w' busy given inStep same =>
    refine ⟨fun hidle => (nomatch busy.symm.trans hidle), ?_, fun _ => ?_⟩
    · rintro rfl
      exact nomatch busy
    refine ⟨pending, old, given, rfl, inStep.stored, inStep.shows, fun b hb => ?_, fun r hr => ?_⟩
    · obtain ⟨o, ho, hid, hlive⟩ := same.live b hb
      rw [← hid]
      exact (inStep.shows.live_perm inStep.isBuilt ho).trans hlive
    · obtain ⟨o, ho, t, -, hruns⟩ := inStep.shows.runs_of_mem inStep.isBuilt hr
      obtain ⟨b, hb, hid⟩ := List.mem_map.mp (same.ids.mem_iff.mp (List.mem_map_of_mem ho))
      exact ⟨b, hb, hid.trans hruns.backend_eq.symm⟩

/-- A cycle that reloads, one that cannot be built, another reload, and one whose second command
is refused. -/
def troubledCycles : List CycleInput := [
  ⟨some beforeRollout, {}⟩,
  ⟨some { state := { defaultBackend := some "app" } }, {}⟩,
  ⟨some beforeRollout, {}⟩,
  ⟨some afterRollout, { channel := some fun calls line =>
    if calls.length < 5 then .ok "" else .error (.rejected line "No such server.") }⟩]

/-- A cycle whose commands are accepted and whose files are not. -/
def lastCycle : CycleInput :=
  ⟨some beforeRollout, {
    channel := some fun _ _ => .ok ""
    validate := .error (.validation "unknown keyword") }⟩

/-- After all of these the last cycle is a patch of five commands. -/
theorem run_stays_in_step_troubled :
    let last := cycle { validateConfig := true } 4 lastCycle
      (run { validateConfig := true } 4 troubledCycles (.fresh {}))
    last.1.outcome = .appliedLive 5 ∧ ∃ pending old, lastCycle.pending = some pending ∧
      last.2.inst.previous = some old ∧ last.2.world.files = some old ∧
      last.2.world.servers.Shows old ∧
      (∀ b ∈ pending.backends, (last.2.world.servers.live b.id).Perm b.live) ∧
      ∀ r ∈ last.2.world.servers, ∃ b ∈ pending.backends, b.id = r.backend := by
  have houtcome : (cycle { validateConfig := true } 4 lastCycle
      (run { validateConfig := true } 4 troubledCycles (.fresh {}))).1.outcome
        = .appliedLive 5 := by decide +kernel
  have hcycles : ∀ y ∈ troubledCycles, y.surroundings.Reliable := by
    intro y hy
    simp only [troubledCycles, List.mem_cons, List.not_mem_nil, or_false] at hy
    rcases hy with rfl | rfl | rfl | rfl <;> exact ⟨rfl, rfl⟩
  have hstep := run_stays_in_step { validateConfig := true } 4 {} troubledCycles lastCycle hcycles
    ⟨rfl, rfl⟩
  exact ⟨houtcome, hstep.2.2 (congrArg Outcome.isIdle houtcome)⟩

end Rollout
