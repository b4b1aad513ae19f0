import Rollout.Proofs.Cycle.InStep

/-!
# Proofs/Cycle/Unfinished — a failed build is never patched against

A generation that could not be built becomes the previous one all the same.  It lacks an artifact,
even if it was edited from a built generation and agrees with the next one in everything that was
asked for; so no built generation has its routing, and neither the comparison nor the planner gets
past that (`reload_of_unfinished`).  Cycles that leave the world alone keep it that way
(`run_unfinished`).
-/

namespace Rollout

variable {s : CycleSettings} {increment : Nat}

/-- **No built generation has the routing of an unfinished one**, as it carries its artifacts. -/
theorem Generation.IsUnfinished.not_sameRouting {old built : Generation} (h : old.IsUnfinished)
    (hbuilt : built.IsBuilt) : ¬ built.sameRouting old = true := fun hrouting =>
  (h.honest.isBuilt hbuilt hrouting).not_isUnfinished h

/-- **The previous generation could not be built.** -/
def Situation.Unfinished (st : Situation) : Prop :=
  ∃ old, st.inst.previous = some old ∧ old.IsUnfinished

theorem Situation.Unfinished.honest {st : Situation} (h : st.Unfinished) : st.Honest := by
  obtain ⟨old, hold, hunfinished⟩ := h
  intro old' hold'
  obtain rfl := Option.some.inj (hold.symm.trans hold')
  exact hunfinished.honest

/-! ## Idle cycles -/

/-- The second half of a cycle is never idle. -/
theorem Surroundings.isIdle_finished (e : Surroundings) (s : CycleSettings) (w : World)
    (result : PatchResult) : (e.finished s w result).1.isIdle = false := by
  rw [outcome_finished]
  cases result with
  | applied n => rfl
  | reloadRequired n => cases e.reload <;> rfl

/-- **An idle cycle leaves the world alone**, and either had nothing to do or leaves an unfinished
generation behind. -/
theorem idle_cycle {x : CycleInput} {st : Situation} (hst : st.Honest)
    (hidle : (cycle s increment x st).1.outcome.isIdle = true) :
    (cycle s increment x st).2.world = st.world ∧
      ((cycle s increment x st).1.outcome = .empty ∧
          (cycle s increment x st).2.inst.previous = st.inst.previous ∨
        (cycle s increment x st).2.Unfinished) := by
  have hspec := cycle_spec s increment x st hst
  generalize (cycle s increment x st).1.outcome = outcome, (cycle s increment x st).2 = st'
    at hspec hidle ⊢
  cases hspec with
  | empty => exact ⟨rfl, Or.inl ⟨rfl, rfl⟩⟩
  | ended pending g outcome ticks w given prepared =>
    cases prepared with
    | failed phase error g unset => exact ⟨rfl, Or.inr ⟨g, rfl, unset⟩⟩
    | unchanged | writeFailed => exact nomatch hidle
  | finished pending g result ticks w given prepared =>
    exact nomatch (x.surroundings.isIdle_finished s w result).symm.trans hidle

/-- How the cycles of a run end. -/
def outcomes (s : CycleSettings) (increment : Nat) : List CycleInput → Situation → List Outcome
  | [], _ => []
  | x :: xs, st =>
    let r := cycle s increment x st
    r.1.outcome :: outcomes s increment xs r.2

/-- **The previous generation stays unfinished over idle cycles.** -/
theorem run_unfinished : ∀ (xs : List CycleInput) {st : Situation}, st.Unfinished →
    (∀ o ∈ outcomes s increment xs st, o.isIdle = true) → (run s increment xs st).Unfinished
  | [], _, h, _ => h
  | x :: xs, st, h, hidle => by
      obtain ⟨hx, hxs⟩ := List.forall_mem_cons.mp hidle
      have hnext : (cycle s increment x st).2.Unfinished := by
        obtain ⟨-, ⟨-, hsame⟩ | hunfinished⟩ := idle_cycle h.honest hx
        · obtain ⟨old, hold, hu⟩ := h
          exact ⟨old, hsame.trans hold, hu⟩
        · exact hunfinished
      exact run_unfinished xs hnext hxs

/-! ## The cycle after them -/

/-- **Without a plan an attempt to patch does nothing but pad.** -/
theorem Attempt.eq_of_no_plan {channel : Option Answers} {previous : Option Generation}
    {built : Generation} {w : World} {r : (PatchResult × Generation) × World}
    (h : Attempt channel increment previous built w r)
    (hnone : ∀ old, previous = some old → planPatch old built = none) :
    r = ((.reloadRequired 0, built.mapBackends (Backend.pad increment)), w) := by
  cases h with
  | applied old plans before planned | refused old plans before planned =>
    exact nomatch (hnone old before).symm.trans planned
  | silent => rfl

/-- **A generation that does not serve the same as the previous one, and that no plan leads to, is
padded and written at once.** -/
theorem cycle_of_no_plan {g built : Generation} {st : Situation} (e : Surroundings)
    (builds : g.build = (.ok (), built)) (hdiffers : st.inst.previous.filter built.serves = none)
    (hnone : ∀ old, st.inst.previous = some old → planPatch old built = none) :
    cycle s increment ⟨some g, e⟩ st = e.conclude s increment
      (writePatched (e.collaborators increment) (.reloadRequired 0)
        (s.arrange (built.mapBackends (Backend.pad increment))) st.world) := by
  have hattempt : Attempt e.channel increment st.inst.previous built st.world
      (patch (e.channel.map World.send) increment st.inst.previous built st.world) :=
    patch_spec fun old plans before planned => nomatch (hnone old before).symm.trans planned
  rw [cycle_eq, prepare_eq, builds]
  simp only [applyBuilt, hdiffers, bind, StateT.bind, Surroundings.collaborators,
    hattempt.eq_of_no_plan hnone]

/-- **After a failed build, the next generation that can be built is written and reloaded**, and
nothing is sent. -/
theorem reload_of_unfinished (s : CycleSettings) (increment : Nat) {g built : Generation}
    {st : Situation} (h : st.Unfinished) (e : Surroundings) (builds : g.build = (.ok (), built)) :
    let r := cycle s increment ⟨some g, e⟩ st
    r.2.world.calls = st.world.calls ++
        .write (s.arrange (built.mapBackends (Backend.pad increment))) ::
          (match e.write with
            | .ok () => [.reload]
            | .error _ => []) ∧
      r.1.outcome = match e.write, e.reload with
        | .ok (), .ok () => .reloaded
        | .ok (), .error error => .reloadFailed error
        | .error error, _ => .writeFailed error := by
  obtain ⟨old, hold, hunfinished⟩ := h
  have hrouting : ¬ built.sameRouting old = true :=
    hunfinished.not_sameRouting (Generation.build_eq_ok_iff.mp builds).1
  have hdiffers : st.inst.previous.filter built.serves = none := by
    rw [hold, Option.filter_some, if_neg fun hserves => hrouting (serves_iff.mp hserves).1]
  have hnone : ∀ old', st.inst.previous = some old' → planPatch old' built = none := by
    intro old' hold'
    obtain rfl := Option.some.inj (hold.symm.trans hold')
    exact Option.eq_none_iff_forall_ne_some.mpr fun plans hplan =>
      hrouting (planPatch_eq_some_iff.mp hplan).1
  rw [cycle_of_no_plan e builds hdiffers hnone]
  obtain ⟨channel, write, validate, reload, clock⟩ := e
  cases write with
  | ok => cases reload <;> exact ⟨List.append_assoc .., rfl⟩
  | error error => exact ⟨rfl, rfl⟩

/-- **A failed build is never patched against.**  After any history, a cycle fails to build, and
those after it have nothing to do or fail to build, too.  Then the next generation that passes both
phases is written once and, if that succeeds, reloaded once.  Nothing is sent to the proxy, and the
cycle ends neither unchanged nor patched. -/
theorem failed_build_never_patched_against (s : CycleSettings) (increment : Nat) (w : World)
    (xs ys : List CycleInput) (x : CycleInput) (phase : BuildPhase) (error : BuildError)
    (g built : Generation) (e : Surroundings)
    (hfailed : (cycle s increment x (run s increment xs (.fresh w))).1.outcome
      = .buildFailed phase error)
    (hidle : ∀ o ∈ outcomes s increment ys (cycle s increment x (run s increment xs (.fresh w))).2,
      o.isIdle = true)
    (hbuilds : g.build = (.ok (), built)) :
    let before := run s increment ys (cycle s increment x (run s increment xs (.fresh w))).2
    let r := cycle s increment ⟨some g, e⟩ before
    (∃ served, r.2.world.calls = before.world.calls ++ .write served ::
      match e.write with
      | .ok () => [.reload]
      | .error _ => []) ∧
    r.1.outcome ≠ .unchanged ∧ ∀ n, r.1.outcome ≠ .appliedLive n := by
  intro before r
  have hunfinished : (cycle s increment x (run s increment xs (.fresh w))).2.Unfinished := by
    obtain ⟨-, ⟨hempty, -⟩ | h⟩ := idle_cycle (run_honest w xs) (congrArg Outcome.isIdle hfailed)
    · exact nomatch hempty.symm.trans hfailed
    · exact h
  obtain ⟨hcalls, houtcome⟩ :=
    reload_of_unfinished s increment (run_unfinished ys hunfinished hidle) e hbuilds
  refine ⟨⟨_, hcalls⟩, ?_⟩
  rw [houtcome]
  split <;> exact ⟨nofun, nofun⟩

/-- What `beforeRollout` becomes under an edit that no backend backs; its artifacts are left over. -/
def editedRollout : Generation :=
  { beforeRollout with state := { beforeRollout.state with defaultBackend := some "missing" } }

/-- The edit fails, so does a repetition after an idle cycle, and it is taken back: although the
proxy serves all of it already, the generation is written and reloaded. -/
theorem failed_build_never_patched_against_edited :
    let failed := (cycle {} 4 ⟨some editedRollout, {}⟩
      (run {} 4 [⟨some beforeRollout, {}⟩] (.fresh {}))).2
    let before := run {} 4 [⟨none, {}⟩, ⟨some editedRollout, {}⟩] failed
    let r := cycle {} 4 ⟨some beforeRollout, { channel := some fun _ _ => .ok "" }⟩ before
    (∃ served, r.2.world.calls = before.world.calls ++ [.write served, .reload]) ∧
      r.1.outcome ≠ .unchanged ∧ ∀ n, r.1.outcome ≠ .appliedLive n :=
  failed_build_never_patched_against {} 4 {} [⟨some beforeRollout, {}⟩]
    [⟨none, {}⟩, ⟨some editedRollout, {}⟩] ⟨some editedRollout, {}⟩ .backends
    (.unknownDefaultBackend "missing") beforeRollout beforeRollout
    { channel := some fun _ _ => .ok "" } (by decide +kernel) (by decide +kernel)
    (by decide +kernel)

end Rollout
