import Rollout.Proofs.Cycle.InStep

/-!
# Proofs/Cycle/Settle — a steady desired state settles

The generation that a cycle leaves behind has been padded, patched or ordered, but it relists the
one that was asked for, so it serves that (`Situation.Settled`).  Asking for the same once more
therefore ends at the comparison, which takes over the old server lists and so changes nothing
(`Settled.cycle_eq`); nor does asking any number of times (`Settled.run_eq`).
-/

namespace Rollout

variable {s : CycleSettings} {increment : Nat}

/-- **The previous generation serves what a pending one asks for.** -/
inductive Situation.Settled (g : Generation) : Situation → Prop where
  | intro (built old : Generation) (w : World) (builds : g.build = (.ok (), built))
      (serves : built.serves old = true) : Settled g (.rotated old w)

namespace Situation.Settled

variable {g : Generation} {st : Situation}

/-- **Asking again changes nothing**: neither the instance nor the world, whose calls are counted
in. -/
theorem cycle_eq (h : Settled g st) (e : Surroundings) :
    cycle s increment ⟨some g, e⟩ st = (⟨.unchanged, []⟩, st) := by
  cases h with
  | intro built old w builds serves =>
    have hfilter : (rotated old w).inst.previous.filter built.serves = some old :=
      (Option.filter_some ..).trans (if_pos serves)
    have hprepare : prepare (e.collaborators increment) s (rotated old w).inst.previous g w
        = (⟨old, .error .unchanged, []⟩, w) := by
      simp only [prepare_eq, builds, applyBuilt, hfilter, Generation.adoptServers_eq serves]
      rfl
    rw [Rollout.cycle_eq]
    exact congrArg (e.conclude s increment) hprepare

/-- **Nor does asking any number of times**, whatever the surroundings would answer. -/
theorem run_eq (h : Settled g st) : ∀ later : List Surroundings,
    run s increment (later.map fun e => ⟨some g, e⟩) st = st
  | [] => rfl
  | e :: later => by
      rw [List.map_cons, run, List.foldl_cons, h.cycle_eq e]
      exact h.run_eq later

/-- **A cycle that comes as far as comparing leaves the instance settled.** -/
theorem of_cycle (e : Surroundings) (hst : st.Honest)
    (hbusy : (cycle s increment ⟨some g, e⟩ st).1.outcome.isIdle = false) :
    Settled g (cycle s increment ⟨some g, e⟩ st).2 := by
  have hspec := cycle_spec s increment ⟨some g, e⟩ st hst
  generalize (cycle s increment ⟨some g, e⟩ st).1.outcome = outcome,
    (cycle s increment ⟨some g, e⟩ st).2 = st' at hspec hbusy ⊢
  have settles {built patched : Generation} {w : World} {r : PatchResult} (w' : World)
      (compared : Compared st.inst.previous g built)
      (attempt : Attempt e.channel increment st.inst.previous built st.world ((r, patched), w)) :
      Settled g (.rotated (s.arrange patched) w') :=
    .intro built _ w' (Generation.build_eq_ok_iff.mpr ⟨compared.isBuilt, compared.state⟩)
      (((attempt.relists hst compared.isBuilt).arrange s).serves
        ((attempt.isBuilt hst compared.isBuilt).arrange s))
  cases hspec with
  | empty nothing => exact nomatch nothing
  | ended pending left outcome ticks w given prepared =>
    obtain rfl := Option.some.inj given
    cases prepared with
    | failed => exact nomatch hbusy
    | unchanged built old isBuilt state before serves =>
      rw [Generation.adoptServers_eq serves]
      exact .intro built old _ (Generation.build_eq_ok_iff.mpr ⟨isBuilt, state⟩) serves
    | writeFailed built patched result w' ticks error compared attempt =>
      exact settles _ compared attempt
  | finished pending left result ticks w given prepared =>
    obtain rfl := Option.some.inj given
    cases prepared with
    | settled built patched w' compared attempt => exact settles _ compared attempt
    | written built patched result w' ticks compared attempt => exact settles _ compared attempt

end Situation.Settled

/-- **A steady desired state settles.**  After any history, a cycle on a desired state ends
unchanged, patched or reloaded.  Then every later cycle on the same state, however many came in
between and whatever its surroundings would answer, ends unchanged without a checkpoint, and leaves
instance and world as they were: the previous generation, the stored files, the proxy and the list
of calls. -/
theorem steady_state_settles (s : CycleSettings) (increment : Nat) (w : World)
    (xs : List CycleInput) (d : DesiredState) (e : Surroundings) (outcome : Outcome)
    (houtcome : (cycle s increment ⟨some (.ofState d), e⟩
      (run s increment xs (.fresh w))).1.outcome = outcome)
    (hdone : outcome = .unchanged ∨ (∃ n, outcome = .appliedLive n) ∨ outcome = .reloaded)
    (later : List Surroundings) (e' : Surroundings) :
    let settled := (cycle s increment ⟨some (.ofState d), e⟩ (run s increment xs (.fresh w))).2
    cycle s increment ⟨some (.ofState d), e'⟩
      (run s increment (later.map fun e => ⟨some (.ofState d), e⟩) settled)
      = (⟨.unchanged, []⟩, settled) := by
  intro settled
  have hbusy : outcome.isIdle = false := by
    rcases hdone with rfl | ⟨n, rfl⟩ | rfl <;> rfl
  have hsettled : settled.Settled (.ofState d) := .of_cycle e (run_honest w xs) (houtcome ▸ hbusy)
  rw [hsettled.run_eq later]
  exact hsettled.cycle_eq e'

/-- A patch of five commands, and two more cycles on the same state, the last with a proxy that would
not reload. -/
theorem steady_state_settles_rollout :
    let settled := (cycle { validateConfig := true } 4
      ⟨some (.ofState afterRollout.state), { channel := some fun _ _ => .ok "" }⟩
      (run { validateConfig := true } 4 [⟨some beforeRollout, {}⟩] (.fresh {}))).2
    cycle { validateConfig := true } 4
      ⟨some (.ofState afterRollout.state), { reload := .error (.validation "stopped") }⟩
      (run { validateConfig := true } 4 ([({} : Surroundings)].map fun e =>
        ⟨some (.ofState afterRollout.state), e⟩) settled)
      = (⟨.unchanged, []⟩, settled) :=
  steady_state_settles { validateConfig := true } 4 {} [⟨some beforeRollout, {}⟩] afterRollout.state
    { channel := some fun _ _ => .ok "" } (.appliedLive 5) (by decide +kernel)
    (Or.inr (Or.inl ⟨5, rfl⟩)) [{}] { reload := .error (.validation "stopped") }

end Rollout
