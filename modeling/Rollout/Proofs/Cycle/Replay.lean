import Rollout.Proofs.Cycle.Settle
import Rollout.Proofs.Cycle.Unfinished

/-!
# Proofs/Cycle/Replay — the previous generation stands for itself

Padding, patching and ordering come after building, so the previous generation is not the one whose
artifacts were derived.  It is built all the same, with just those artifacts, and serves what it
serves (`Settled.replays`); a copy of it that is made pending changes nothing.

The comparison looks at the previous generation only, not at how its cycle ended.  A generation that
could not be written, or that the proxy would not reload, becomes the previous one as well, and asking
for it again is answered as if it were in place.
-/

namespace Rollout

variable {s : CycleSettings} {k : Nat}

/-! ## Cycles without a pending generation -/

/-- **A cycle that ends empty has changed nothing**, except that nothing is pending after it. -/
theorem cycle_of_empty {x : CycleInput} {st : Situation} (hst : st.Honest)
    (hempty : (cycle s k x st).1.outcome = .empty) :
    (cycle s k x st).2 = ⟨{ st.inst with pending := none }, st.world⟩ := by
  have hspec := cycle_spec s k x st hst
  generalize (cycle s k x st).1.outcome = outcome, (cycle s k x st).2 = st' at hspec hempty ⊢
  cases hspec with
  | empty => rfl
  | ended pending g outcome ticks w given prepared =>
    subst hempty
    cases prepared
  | finished pending g result ticks w given prepared =>
    have hidle : (x.surroundings.finished s w result).1.isIdle = true := congrArg _ hempty
    exact nomatch (x.surroundings.isIdle_finished s w result).symm.trans hidle

namespace Situation.Settled

variable {g : Generation} {st : Situation}

/-- **A settled instance stays as it is while nothing is pending.** -/
theorem run_of_empty (h : st.Settled g) (hst : st.Honest) : ∀ {ys : List CycleInput},
    (∀ o ∈ outcomes s k ys st, o = .empty) → run s k ys st = st
  | [], _ => rfl
  | y :: ys, hys => by
      obtain ⟨hy, hys⟩ := List.forall_mem_cons.mp hys
      have hsame : (cycle s k y st).2 = st := by
        rw [cycle_of_empty hst hy]
        cases h
        rfl
      rw [hsame] at hys
      rw [run, List.foldl_cons, hsame]
      exact h.run_of_empty hst hys

/-! ## The previous generation as the pending one -/

/-- **The previous generation of a settled instance is built, and the instance is settled with
it.** -/
theorem replays (h : st.Settled g) (hst : st.Honest) :
    ∃ old, st.inst.previous = some old ∧ old.IsBuilt ∧ st.Settled old := by
  cases h with
  | intro built old w builds serves =>
    have hbuilt := (Generation.build_eq_ok_iff.mp builds).1
    have hold : old.IsBuilt := (hst old rfl).isBuilt hbuilt (serves_iff.mp serves).1
    exact ⟨old, rfl, hold, .intro old old w (Generation.build_eq_ok_iff.mpr ⟨hold, rfl⟩)
      ((Generation.Relists.refl old).serves hold)⟩

end Situation.Settled

/-- **The previous generation is stable under replay.**  After any history, a cycle ends unchanged,
patched or reloaded, and those after it have nothing pending.  Then both phases succeed on the
previous generation and find the artifacts it carries.  A cycle on a copy of it ends unchanged without
a checkpoint, whatever its surroundings would answer, and leaves instance and world as they were: the
previous generation, the stored files, the proxy and the list of calls. -/
theorem previous_generation_replays (s : CycleSettings) (k : Nat) (w : World)
    (xs ys : List CycleInput) (x : CycleInput) (outcome : Outcome)
    (houtcome : (cycle s k x (run s k xs (.fresh w))).1.outcome = outcome)
    (hdone : outcome = .unchanged ∨ (∃ n, outcome = .appliedLive n) ∨ outcome = .reloaded)
    (hempty : ∀ o ∈ outcomes s k ys (cycle s k x (run s k xs (.fresh w))).2, o = .empty) :
    let before := run s k ys (cycle s k x (run s k xs (.fresh w))).2
    ∃ old, before.inst.previous = some old ∧
      old.buildFrontends = (.ok (), old) ∧ old.buildBackends = (.ok (), old) ∧
      ∀ e, cycle s k ⟨some old, e⟩ before = (⟨.unchanged, []⟩, before) := by
  intro before
  have hbusy : outcome.isIdle = false := by
    rcases hdone with rfl | ⟨n, rfl⟩ | rfl <;> rfl
  have hhonest : (run s k xs (.fresh w)).Honest := run_honest w xs
  obtain ⟨pending, e⟩ := x
  cases pending with
  | none => exact nomatch hbusy.symm.trans (congrArg Outcome.isIdle houtcome.symm)
  | some g =>
    have hafter : (cycle s k ⟨some g, e⟩ (run s k xs (.fresh w))).2.Honest :=
      cycle_honest ⟨some g, e⟩ hhonest
    have hsettled : (cycle s k ⟨some g, e⟩ (run s k xs (.fresh w))).2.Settled g :=
      .of_cycle e hhonest (houtcome ▸ hbusy)
    have hbefore : before = (cycle s k ⟨some g, e⟩ (run s k xs (.fresh w))).2 :=
      hsettled.run_of_empty hafter hempty
    obtain ⟨old, hold, hbuilt, hreplays⟩ := hsettled.replays hafter
    rw [hbefore]
    exact ⟨old, hold, hbuilt.frontends, hbuilt.backends, hreplays.cycle_eq⟩

/-- Three servers are padded to four, five commands move others into the slots, and after a cycle
without a pending generation the patched one is asked for again. -/
theorem previous_generation_replays_rollout :
    let patched := (cycle { validateConfig := true } 4
      ⟨some afterRollout, { channel := some fun _ _ => .ok "" }⟩
      (run { validateConfig := true } 4 [⟨some beforeRollout, {}⟩] (.fresh {}))).2
    let before := run { validateConfig := true } 4 [⟨none, {}⟩] patched
    ∃ old, before.inst.previous = some old ∧
      old.buildFrontends = (.ok (), old) ∧ old.buildBackends = (.ok (), old) ∧
      ∀ e, cycle { validateConfig := true } 4 ⟨some old, e⟩ before = (⟨.unchanged, []⟩, before) :=
  previous_generation_replays { validateConfig := true } 4 {} [⟨some beforeRollout, {}⟩] [⟨none, {}⟩]
    ⟨some afterRollout, { channel := some fun _ _ => .ok "" }⟩ (.appliedLive 5) (by decide +kernel)
    (Or.inr (Or.inl ⟨5, rfl⟩)) (by decide +kernel)

/-! ## A failed application -/

/-- **A failed application counts as done.**  After any history, a cycle on a desired state cannot
write its generation, or cannot have the proxy reload it.  The generation becomes the previous one all
the same.  So every later cycle on the same state, however many came in between and whatever its
surroundings would answer, ends unchanged without a checkpoint and calls nobody: the list of calls,
the stored files and the proxy stay as the failure left them. -/
theorem failed_application_not_retried (s : CycleSettings) (k : Nat) (w : World)
    (xs : List CycleInput) (d : DesiredState) (e : Surroundings) (outcome : Outcome)
    (houtcome : (cycle s k ⟨some (.ofState d), e⟩ (run s k xs (.fresh w))).1.outcome = outcome)
    (hfailed : (∃ error, outcome = .writeFailed error) ∨ ∃ error, outcome = .reloadFailed error)
    (later : List Surroundings) (e' : Surroundings) :
    let failed := (cycle s k ⟨some (.ofState d), e⟩ (run s k xs (.fresh w))).2
    cycle s k ⟨some (.ofState d), e'⟩
      (run s k (later.map fun e => ⟨some (.ofState d), e⟩) failed)
      = (⟨.unchanged, []⟩, failed) := by
  intro failed
  have hbusy : outcome.isIdle = false := by
    rcases hfailed with ⟨error, rfl⟩ | ⟨error, rfl⟩ <;> rfl
  have hsettled : failed.Settled (.ofState d) := .of_cycle e (run_honest w xs) (houtcome ▸ hbusy)
  rw [hsettled.run_eq later]
  exact hsettled.cycle_eq e'

/-- A patch goes live, its files are not written, and the next cycle on the same state would have had
a writer that works. -/
theorem failed_application_not_retried_rollout :
    let failed := (cycle { validateConfig := true } 4
      ⟨some (.ofState afterRollout.state),
        { channel := some fun _ _ => .ok "", write := .error (.unknownTemplate "haproxy.tmpl") }⟩
      (run { validateConfig := true } 4 [⟨some beforeRollout, {}⟩] (.fresh {}))).2
    cycle { validateConfig := true } 4 ⟨some (.ofState afterRollout.state), {}⟩
      (run { validateConfig := true } 4 ([{}].map fun e =>
        ⟨some (.ofState afterRollout.state), e⟩) failed)
      = (⟨.unchanged, []⟩, failed) :=
  failed_application_not_retried { validateConfig := true } 4 {} [⟨some beforeRollout, {}⟩]
    afterRollout.state
    { channel := some fun _ _ => .ok "", write := .error (.unknownTemplate "haproxy.tmpl") }
    (.writeFailed (.unknownTemplate "haproxy.tmpl")) (by decide +kernel) (Or.inl ⟨_, rfl⟩) [{}] {}

/-- **The next cycle does not make up for a failed one.**  On a fresh instance, whether the files
cannot be written or the proxy does not reload, the next cycle on the same state ends unchanged
without a call, and the proxy is left without servers. -/
theorem failed_application_never_made_up :
    let failed (e : Surroundings) :=
      cycle {} 0 ⟨some (.ofState beforeRollout.state), e⟩ (.fresh {})
    let next (e : Surroundings) :=
      cycle {} 0 ⟨some (.ofState beforeRollout.state), {}⟩ (failed e).2
    let unwritable : Surroundings := { write := .error (.unknownTemplate "haproxy.tmpl") }
    let unloaded : Surroundings := { reload := .error (.reload (some 1) "reload failed") }
    ((failed unwritable).1.outcome = .writeFailed (.unknownTemplate "haproxy.tmpl") ∧
      (next unwritable).1.outcome = .unchanged ∧
      (next unwritable).2.world.calls = (failed unwritable).2.world.calls ∧
      (next unwritable).2.world.servers = []) ∧
    (failed unloaded).1.outcome = .reloadFailed (.reload (some 1) "reload failed") ∧
      (next unloaded).1.outcome = .unchanged ∧
      (next unloaded).2.world.calls = (failed unloaded).2.world.calls ∧
      (next unloaded).2.world.servers = [] := by
  decide +kernel

end Rollout
