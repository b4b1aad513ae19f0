import Rollout.Proofs.Cycle.Run
import Rollout.Proofs.Patch.Live
import Rollout.Proofs.Patch.Settled

/-!
# Proofs/Cycle/Honest — the previous generation is what it claims to be

A cycle makes its generation the previous one even if it could not be built.  Such a generation
lacks an artifact, so it is `Honest`, and no built generation is ever compared with it or patched
from it successfully.  Honesty survives every cycle, whatever the surroundings do
(`run_honest`); therefore what the comparison calls different always needs a command, and no
cycle ends in a patch without commands.
-/

namespace Rollout

variable {s : CycleSettings} {increment : Nat}

/-! ## Generations that leave a cycle -/

/-- Only the backends can differ between generations with the same routing. -/
theorem Generation.adoptServers_eq_of_sameRouting {g old : Generation}
    (h : g.sameRouting old = true) : g.adoptServers old = old := by
  obtain ⟨hglobals, hhosts, hdefault, hfrontends, hmaps⟩ := sameRouting_iff.mp h
  obtain ⟨⟨globals, hosts, backends, defaultBackend⟩, frontends, pathMaps⟩ := g
  obtain ⟨⟨globals', hosts', backends', defaultBackend'⟩, frontends', pathMaps'⟩ := old
  obtain rfl : globals = globals' := hglobals
  obtain rfl : hosts = hosts' := hhosts
  obtain rfl : defaultBackend = defaultBackend' := hdefault
  obtain rfl : frontends = frontends' := hfrontends
  obtain rfl : pathMaps = pathMaps' := hmaps
  rfl

/-- **A generation takes over all of one that it serves the same as.** -/
theorem Generation.adoptServers_eq {g old : Generation} (h : g.serves old = true) :
    g.adoptServers old = old :=
  adoptServers_eq_of_sameRouting (serves_iff.mp h).1

/-- Padding keeps a generation built. -/
theorem Generation.IsBuilt.pad {g : Generation} (h : g.IsBuilt) (k : Nat) :
    (g.mapBackends (Backend.pad k)).IsBuilt :=
  h.mapBackends (fun b => b.id_pad k) fun _ hb => hb.pad k

/-- Ordering servers keeps a generation built. -/
theorem Generation.IsBuilt.arrange {g : Generation} (h : g.IsBuilt) (s : CycleSettings) :
    (s.arrange g).IsBuilt := by
  rw [CycleSettings.arrange]
  split_ifs
  · exact h.mapBackends Backend.id_sortServers fun _ hb => hb.sortServers
  · exact h

namespace Attempt

variable {channel : Option Answers} {previous : Option Generation} {built : Generation} {w : World}
  {r : (PatchResult × Generation) × World}

/-- **An attempt to patch leaves a built generation.** -/
theorem isBuilt (h : Attempt channel increment previous built w r)
    (hprevious : ∀ old, previous = some old → old.Honest) (hbuilt : built.IsBuilt) :
    r.1.2.IsBuilt := by
  cases h with
  | applied old plans before planned =>
    exact (planned_of_honest (hprevious old before) hbuilt planned).isBuilt_adoptPlans
  | refused | silent => exact hbuilt.pad increment

/-- An attempt that needs no command has a plan without commands. -/
theorem exists_settled_plan (h : Attempt channel increment previous built w r)
    (hnone : r.1.1 = .applied 0) :
    ∃ old plans, previous = some old ∧ planPatch old built = some plans ∧
      planCommands plans = [] := by
  cases h with
  | applied old plans before planned =>
    exact ⟨old, plans, before, planned, List.length_eq_zero_iff.mp (PatchResult.applied.inj hnone)⟩
  | refused | silent => exact nomatch hnone

end Attempt

namespace Prepares

variable {e : Surroundings} {previous : Option Generation} {pending : Generation} {w : World}
  {r : Prepared × World}

/-- **A cycle leaves an honest generation behind.** -/
theorem honest (h : Prepares s increment e previous pending w r)
    (hprevious : ∀ old, previous = some old → old.Honest) : r.1.generation.Honest := by
  cases h with
  | failed phase error g unset => exact Generation.IsUnfinished.honest unset
  | unchanged built old isBuilt state before serves =>
    have : (built.adoptServers old).Honest := by
      rw [Generation.adoptServers_eq serves]
      exact hprevious old before
    exact this
  | settled built patched w' compared attempt =>
    exact ((attempt.isBuilt hprevious compared.isBuilt).arrange s).honest
  | written built patched result w' ticks compared attempt =>
    exact ((attempt.isBuilt hprevious compared.isBuilt).arrange s).honest
  | writeFailed built patched result w' ticks error compared attempt =>
    exact ((attempt.isBuilt hprevious compared.isBuilt).arrange s).honest

/-- The first half of a cycle never ends it with a patch. -/
theorem next_ne_appliedLive (h : Prepares s increment e previous pending w r) (n : Nat) :
    r.1.next ≠ .error (.appliedLive n) := by
  cases h <;> nofun

/-- **A generation that differs from the previous one never comes out settled**, as the planner
would have found the same servers. -/
theorem next_ne_settled (h : Prepares s increment e previous pending w r)
    (hprevious : ∀ old, previous = some old → old.Honest) : r.1.next ≠ .ok (.applied 0) := by
  intro hnext
  cases h with
  | failed | unchanged | writeFailed => exact nomatch hnext
  | settled built patched w' compared attempt =>
    obtain ⟨old, plans, before, planned, hnone⟩ := attempt.exists_settled_plan rfl
    have hplanned := planned_of_honest (hprevious old before) compared.isBuilt planned
    have hserves := ((exists_settled_plan_iff hplanned.builtOld compared.isBuilt).mp
      ⟨plans, planned, hnone⟩).1
    exact nomatch (compared.differs old before).symm.trans hserves
  | written built patched result w' ticks compared attempt needed =>
    obtain rfl := Except.ok.inj hnext
    exact nomatch needed

end Prepares

/-! ## Runs -/

/-- The previous generation of the instance is honest. -/
def Situation.Honest (st : Situation) : Prop := ∀ old, st.inst.previous = some old → old.Honest

/-- **Every cycle keeps the previous generation honest.** -/
theorem cycle_honest (x : CycleInput) {st : Situation} (h : st.Honest) :
    (cycle s increment x st).2.Honest := by
  have hspec := cycle_spec s increment x st h
  generalize (cycle s increment x st).1.outcome = outcome, (cycle s increment x st).2 = st'
    at hspec ⊢
  cases hspec with
  | empty => exact h
  | ended pending g outcome ticks w given prepared =>
    rintro old ⟨⟩
    exact prepared.honest h
  | finished pending g result ticks w given prepared =>
    rintro old ⟨⟩
    exact prepared.honest h

/-- **The previous generation is honest throughout a run.** -/
theorem run_honest (w : World) (xs : List CycleInput) :
    (run s increment xs (.fresh w)).Honest :=
  run_induction (fun x _ (_ : True) => cycle_honest x) (fun _ _ => trivial) nofun

/-- **No cycle ends in a patch without commands.** -/
theorem outcome_ne_settled (x : CycleInput) {st : Situation} (h : st.Honest) :
    (cycle s increment x st).1.outcome ≠ .appliedLive 0 := by
  have hspec := cycle_spec s increment x st h
  generalize (cycle s increment x st).1.outcome = outcome, (cycle s increment x st).2 = st'
    at hspec ⊢
  intro houtcome
  cases hspec with
  | empty => exact nomatch houtcome
  | ended pending g outcome ticks w given prepared =>
    exact prepared.next_ne_appliedLive 0 (congrArg Except.error houtcome)
  | finished pending g result ticks w given prepared =>
    have hresult := Surroundings.eq_applied_of_finished houtcome
    exact prepared.next_ne_settled h (congrArg Except.ok hresult)

/-- **Comparison and planner agree.**  Between two built generations there is a plan without
commands exactly when the comparison finds them equal and no backend wants two servers at one
place.  So no cycle of a run, whatever its surroundings do, ends in a patch without commands. -/
theorem comparison_agrees_with_planner :
    (∀ old current : Generation, old.IsBuilt → current.IsBuilt →
      ((∃ plans, planPatch old current = some plans ∧ planCommands plans = []) ↔
        current.matchesOld (some old) = true ∧
          ∀ b ∈ current.backends, (b.enabledServers.map Server.target).Nodup)) ∧
    ∀ (s : CycleSettings) (increment : Nat) (w : World) (xs : List CycleInput) (x : CycleInput),
      (cycle s increment x (run s increment xs (.fresh w))).1.outcome ≠ .appliedLive 0 :=
  ⟨fun _ _ hold hcurrent => exists_settled_plan_iff hold hcurrent,
    fun _ _ w xs x => outcome_ne_settled x (run_honest w xs)⟩

/-- The servers of `beforeRollout` under other names, in another order and without the slot. -/
def renamedServers : Generation := .ofServers [
  { name := "b", ip := "10.0.0.2", port := 80 },
  { name := "a", ip := "10.0.0.1", port := 80 }]

/-- Renaming needs no command. -/
theorem comparison_agrees_with_planner_renamed :
    renamedServers.matchesOld (some beforeRollout) = true ∧
      ∃ plans, planPatch beforeRollout renamedServers = some plans ∧ planCommands plans = [] :=
  have hequal : renamedServers.matchesOld (some beforeRollout) = true := by decide +kernel
  ⟨hequal, (comparison_agrees_with_planner.1 beforeRollout renamedServers
    ⟨by decide +kernel, by decide +kernel⟩ ⟨by decide +kernel, by decide +kernel⟩).mpr
      ⟨hequal, by decide +kernel⟩⟩

end Rollout
