import Rollout.Cycle.Run
import Rollout.Proofs.Generation.Phases
import Rollout.Proofs.World

/-!
# Proofs/Cycle/Run — runs of cycles in a world

A run is a list of cycles, each with the generation that is pending before it and with
`Surroundings` that answer as they like.  `cycle_spec` lists the ways a cycle can go; what holds in
a whole run follows by `run_induction`, one case of `CycleSpec` at a time.
-/

namespace Rollout

/-- **What the surroundings of one cycle do.** -/
structure Surroundings where
  /-- How the proxy answers on its channel, if there is one. -/
  channel : Option Answers := none
  write : Except RenderError Unit := .ok ()
  validate : Except ProcessError Unit := .ok ()
  reload : Except ProcessError Unit := .ok ()
  /-- The time after some calls. -/
  clock : List Call → Nat := fun _ => 0

namespace World

/-- The world after a generation was written. -/
def store (g : Generation) (w : World) : World := { w.log (.write g) with files := some g }

/-- The world after a reload: the proxy starts over from the stored files. -/
def restart (w : World) : World :=
  { w.log .reload with servers := (w.files.map Generation.table).getD w.servers }

end World

namespace Surroundings

/-- **The collaborators of a cycle**, with the live updater among them.  A call that fails changes
nothing but the list of calls. -/
def collaborators (e : Surroundings) (increment : Nat) : Collaborators (StateM World) where
  patch previous g := patch (e.channel.map World.send) increment previous g
  write g w := (e.write, match e.write with | .ok () => w.store g | .error _ => w.log (.write g))
  validate w := (e.validate, w.log .validate)
  reload w := (e.reload, match e.reload with | .ok () => w.restart | .error _ => w.log .reload)
  clock w := (e.clock w.calls, w)

end Surroundings

/-- An instance in its world. -/
structure Situation where
  inst : Instance := {}
  world : World := {}
  deriving DecidableEq, Repr

/-- A fresh instance in some world. -/
def Situation.fresh (w : World) : Situation := { world := w }

/-- What one cycle is given: the pending generation, if any, and its surroundings. -/
structure CycleInput where
  pending : Option Generation
  surroundings : Surroundings

section

variable (s : CycleSettings) (increment : Nat)

/-- **One cycle.** -/
def cycle (x : CycleInput) (st : Situation) : Report × Situation :=
  let r := ({ st.inst with pending := x.pending } : Instance).update
    (x.surroundings.collaborators increment) s st.world
  (r.1.1, ⟨r.1.2, r.2⟩)

/-- **A run of cycles.** -/
def run (xs : List CycleInput) (st : Situation) : Situation :=
  xs.foldl (fun st x => (cycle s increment x st).2) st

end

variable {s : CycleSettings} {increment : Nat}

/-- **What holds at the start and survives every cycle holds after a run.** -/
theorem run_induction {P : Situation → Prop} {allowed : CycleInput → Prop}
    (hcycle : ∀ x st, allowed x → P st → P (cycle s increment x st).2) :
    ∀ {xs : List CycleInput} {st : Situation}, (∀ x ∈ xs, allowed x) → P st →
      P (run s increment xs st)
  | [], _, _, h => h
  | x :: xs, st, hxs, h => by
      obtain ⟨hx, hxs⟩ := List.forall_mem_cons.mp hxs
      have hrest : P (run s increment xs (cycle s increment x st).2) :=
        run_induction hcycle hxs (hcycle x st hx h)
      exact hrest

/-! ## The second half of a cycle -/

/-- Where the second half of a cycle leads. -/
def Surroundings.finished (e : Surroundings) (s : CycleSettings) (w : World) :
    PatchResult → Outcome × World
  | .applied 0 => (.appliedLive 0, w)
  | .applied (n + 1) => (.appliedLive (n + 1), if s.validateConfig then w.log .validate else w)
  | .reloadRequired _ =>
    match e.reload with
    | .ok () => (.reloaded, w.restart)
    | .error err => (.reloadFailed err, w.log .reload)

/-- **The second half of a cycle leads there.** -/
theorem finish_spec (s : CycleSettings) (increment : Nat) (e : Surroundings) (w : World)
    (result : PatchResult) :
    ((finish (e.collaborators increment) s result w).1.outcome,
      (finish (e.collaborators increment) s result w).2) = e.finished s w result := by
  obtain ⟨channel, write, validate, reload, clock⟩ := e
  obtain ⟨sort, validateConfig⟩ := s
  cases result with
  | applied n =>
    cases n with
    | zero => rfl
    | succ n => cases validateConfig <;> cases validate <;> rfl
  | reloadRequired n => cases reload <;> rfl

/-- **How the second half of a cycle ends.** -/
theorem Surroundings.outcome_finished (e : Surroundings) (s : CycleSettings) (w : World)
    (result : PatchResult) : (e.finished s w result).1 = match result with
      | .applied n => .appliedLive n
      | .reloadRequired _ =>
        match e.reload with
        | .ok () => .reloaded
        | .error err => .reloadFailed err := by
  cases result with
  | applied n => cases n <;> rfl
  | reloadRequired n =>
    rw [finished]
    cases e.reload <;> rfl

/-- The second half of a cycle reports the commands of the patch. -/
theorem Surroundings.eq_applied_of_finished {e : Surroundings} {s : CycleSettings} {w : World}
    {result : PatchResult} {n : Nat} (h : (e.finished s w result).1 = .appliedLive n) :
    result = .applied n := by
  rw [outcome_finished] at h
  cases result with
  | applied m => exact congrArg PatchResult.applied (Outcome.appliedLive.inj h)
  | reloadRequired m => cases hreload : e.reload <;> rw [hreload] at h <;> exact nomatch h

/-- The second half of a cycle does not compare. -/
theorem Surroundings.finished_ne_unchanged (e : Surroundings) (s : CycleSettings) (w : World)
    (result : PatchResult) : (e.finished s w result).1 ≠ .unchanged := by
  rw [outcome_finished]
  cases result with
  | applied n => exact nofun
  | reloadRequired n => cases e.reload <;> exact nofun

/-! ## The first half of a cycle -/

/-- **A pending generation that was built and has to be served**: it differs from the one before. -/
structure Compared (previous : Option Generation) (pending built : Generation) : Prop where
  isBuilt : built.IsBuilt
  state : built.state = pending.state
  differs : ∀ old, previous = some old → built.serves old = false

/-- **How the first half of a cycle goes.** -/
inductive Prepares (s : CycleSettings) (increment : Nat) (e : Surroundings)
    (previous : Option Generation) (pending : Generation) (w : World) :
    Prepared × World → Prop where
  | failed (phase : BuildPhase) (error : BuildError) (g : Generation)
      (unset : g.frontends = none ∨ g.pathMaps = none) :
      Prepares s increment e previous pending w
        (⟨g, .error (.buildFailed phase error), []⟩, w)
  | unchanged (built old : Generation) (isBuilt : built.IsBuilt)
      (state : built.state = pending.state) (before : previous = some old)
      (serves : built.serves old = true) :
      Prepares s increment e previous pending w
        (⟨built.adoptServers old, .error .unchanged, []⟩, w)
  | settled (built patched : Generation) (w' : World) (compared : Compared previous pending built)
      (attempt : Attempt e.channel increment previous built w ((.applied 0, patched), w')) :
      Prepares s increment e previous pending w (⟨s.arrange patched, .ok (.applied 0), []⟩, w')
  | written (built patched : Generation) (result : PatchResult) (w' : World) (ticks : List Tick)
      (compared : Compared previous pending built)
      (attempt : Attempt e.channel increment previous built w ((result, patched), w'))
      (needed : result.needsWrite = true) (written : e.write = .ok ()) :
      Prepares s increment e previous pending w
        (⟨s.arrange patched, .ok result, ticks⟩, w'.store (s.arrange patched))
  | writeFailed (built patched : Generation) (result : PatchResult) (w' : World)
      (ticks : List Tick) (error : RenderError) (compared : Compared previous pending built)
      (attempt : Attempt e.channel increment previous built w ((result, patched), w'))
      (needed : result.needsWrite = true) (refused : e.write = .error error) :
      Prepares s increment e previous pending w
        (⟨s.arrange patched, .error (.writeFailed error), ticks⟩,
          w'.log (.write (s.arrange patched)))

/-- **A generation that carries both artifacts only if it is built.** -/
def Generation.Honest (g : Generation) : Prop :=
  g.frontends.isSome = true → g.pathMaps.isSome = true → g.IsBuilt

theorem Generation.IsBuilt.honest {g : Generation} (h : g.IsBuilt) : g.Honest := fun _ _ => h

theorem Generation.IsUnfinished.honest {g : Generation} (h : g.IsUnfinished) : g.Honest := by
  intro hf hm
  rcases h with hnone | hnone
  · exact nomatch hnone ▸ hf
  · exact nomatch hnone ▸ hm

theorem Generation.sameRouting_iff {g h : Generation} : g.sameRouting h = true ↔
    g.state.globals = h.state.globals ∧ g.state.hosts = h.state.hosts ∧
      g.state.defaultBackend = h.state.defaultBackend ∧ g.frontends = h.frontends ∧
        g.pathMaps = h.pathMaps := by
  simp [sameRouting, and_assoc]

/-- **An honest generation with the routing of a built one is built**: it carries its artifacts. -/
theorem Generation.Honest.isBuilt {old current : Generation} (hold : old.Honest)
    (hcurrent : current.IsBuilt) (hrouting : current.sameRouting old = true) : old.IsBuilt := by
  obtain ⟨-, -, -, hfrontends, hpathMaps⟩ := sameRouting_iff.mp hrouting
  obtain ⟨hf, hm⟩ := hcurrent.artifacts
  exact hold (hfrontends ▸ hf) (hpathMaps ▸ hm)

/-- **Only built generations are patched from**, if the previous one is honest. -/
theorem planned_of_honest {old current : Generation} {plans : List BackendPlan}
    (hold : old.Honest) (hcurrent : current.IsBuilt)
    (hplan : planPatch old current = some plans) : Planned old current plans :=
  ⟨hold.isBuilt hcurrent (planPatch_eq_some_iff.mp hplan).1, hcurrent, hplan⟩

/-- Writing a patched generation. -/
theorem writePatched_spec (increment : Nat) (e : Surroundings) (result : PatchResult)
    (g : Generation) (w : World) :
    ∃ ticks, writePatched (e.collaborators increment) result g w =
      if result.needsWrite then
        match e.write with
        | .ok () => (⟨g, .ok result, ticks⟩, w.store g)
        | .error error => (⟨g, .error (.writeFailed error), ticks⟩, w.log (.write g))
      else (⟨g, .ok result, []⟩, w) := by
  obtain ⟨channel, write, validate, reload, clock⟩ := e
  cases result with
  | applied n =>
    cases n with
    | zero => exact ⟨[], rfl⟩
    | succ n => cases write <;> exact ⟨_, rfl⟩
  | reloadRequired n => cases write <;> exact ⟨_, rfl⟩

/-- A generation that is built is compared, patched and written. -/
theorem applyBuilt_spec (e : Surroundings) {previous : Option Generation}
    {pending built : Generation} (w : World) (hprevious : ∀ old, previous = some old → old.Honest)
    (hbuilt : built.IsBuilt) (hstate : built.state = pending.state) :
    Prepares s increment e previous pending w
      (applyBuilt (e.collaborators increment) s previous built w) := by
  cases hfilter : previous.filter built.serves with
  | some old =>
    obtain ⟨hbefore, hserves⟩ := Option.filter_eq_some_iff.mp hfilter
    have hrun : applyBuilt (e.collaborators increment) s previous built w
        = (⟨built.adoptServers old, .error .unchanged, []⟩, w) := by
      simp only [applyBuilt, hfilter]
      rfl
    rw [hrun]
    exact .unchanged built old hbuilt hstate hbefore hserves
  | none =>
    have hdiffers : ∀ old, previous = some old → built.serves old = false := by
      rintro old rfl
      simpa using hfilter
    have hcompared : Compared previous pending built := ⟨hbuilt, hstate, hdiffers⟩
    have hattempt : Attempt e.channel increment previous built w
        (patch (e.channel.map World.send) increment previous built w) :=
      patch_spec fun old plans hbefore hplan =>
        (planned_of_honest (hprevious old hbefore) hbuilt hplan).isPlain
    have hrun : applyBuilt (e.collaborators increment) s previous built w
        = let r := patch (e.channel.map World.send) increment previous built w
          writePatched (e.collaborators increment) r.1.1 (s.arrange r.1.2) r.2 := by
      simp only [applyBuilt, hfilter]
      rfl
    rw [hrun]
    generalize patch (e.channel.map World.send) increment previous built w = r at hattempt
    obtain ⟨⟨result, patched⟩, w'⟩ := r
    obtain ⟨ticks, hwritten⟩ := writePatched_spec increment e result (s.arrange patched) w'
    simp only [hwritten]
    split_ifs with hneeded
    · cases hwrite : e.write with
      | ok => exact .written built patched result w' ticks hcompared hattempt hneeded hwrite
      | error error =>
        exact .writeFailed built patched result w' ticks error hcompared hattempt hneeded hwrite
    · cases result with
      | applied n =>
        obtain rfl : n = 0 := by simpa [PatchResult.needsWrite] using hneeded
        exact .settled built patched w' hcompared hattempt
      | reloadRequired n => exact absurd rfl hneeded

/-- **The first half of a cycle builds, and goes on if that succeeds.** -/
theorem prepare_eq {m : Type → Type} [Monad m] [Journal m] (c : Collaborators m) (s : CycleSettings)
    (previous : Option Generation) (g : Generation) :
    prepare c s previous g = match g.build with
      | (.error (phase, e), g) => do
        Journal.note (.buildFailed phase e)
        pure ⟨g, .error (.buildFailed phase e), []⟩
      | (.ok (), g) => applyBuilt c s previous g := by
  rw [prepare, Generation.build]
  rcases g.buildFrontends with ⟨_ | ⟨⟩, g₁⟩
  · rfl
  · rcases hb : g₁.buildBackends with ⟨_ | ⟨⟩, g₂⟩ <;> simp only [hb]

/-- **The first half of a cycle goes one of these ways.** -/
theorem prepare_spec (e : Surroundings) {previous : Option Generation} (pending : Generation)
    (w : World) (hprevious : ∀ old, previous = some old → old.Honest) :
    Prepares s increment e previous pending w
      (prepare (e.collaborators increment) s previous pending w) := by
  rw [prepare_eq]
  rcases hbuild : pending.build with ⟨⟨phase, error⟩ | ⟨⟩, g⟩
  · exact .failed phase error g (Generation.isUnfinished_of_build hbuild)
  · obtain ⟨hbuilt, hstate⟩ := Generation.build_eq_ok_iff.mp hbuild
    exact applyBuilt_spec e w hprevious hbuilt hstate

/-! ## Whole cycles -/

/-- The situation after a generation became the previous one. -/
def Situation.rotated (g : Generation) (w : World) : Situation := ⟨{ previous := some g }, w⟩

/-- The rest of a cycle, after its first half. -/
def Surroundings.conclude (e : Surroundings) (s : CycleSettings) (increment : Nat) :
    Prepared × World → Report × Situation
  | (⟨g, .error outcome, ticks⟩, w) => (⟨outcome, ticks⟩, .rotated g w)
  | (⟨g, .ok result, ticks⟩, w) =>
    let r := finish (e.collaborators increment) s result w
    (⟨r.1.outcome, ticks ++ r.1.ticks⟩, .rotated g r.2)

/-- **A cycle with a pending generation has two halves**, and the generation becomes the previous
one between them. -/
theorem cycle_eq (s : CycleSettings) (increment : Nat) (pending : Generation) (e : Surroundings)
    (st : Situation) :
    cycle s increment ⟨some pending, e⟩ st = e.conclude s increment
      (prepare (e.collaborators increment) s st.inst.previous pending st.world) := by
  rcases hp : prepare (e.collaborators increment) s st.inst.previous pending st.world with
    ⟨⟨g, outcome | result, ticks⟩, w⟩ <;>
  · simp only [cycle, Instance.update, bind, StateT.bind, hp]
    rfl

/-- **How a cycle goes**: there is nothing to do, its first half ends it, or it is finished. -/
inductive CycleSpec (s : CycleSettings) (increment : Nat) (x : CycleInput) (st : Situation) :
    Outcome → Situation → Prop where
  | empty (nothing : x.pending = none) :
      CycleSpec s increment x st .empty ⟨{ st.inst with pending := none }, st.world⟩
  | ended (pending g : Generation) (outcome : Outcome) (ticks : List Tick) (w : World)
      (given : x.pending = some pending)
      (prepared : Prepares s increment x.surroundings st.inst.previous pending st.world
        (⟨g, .error outcome, ticks⟩, w)) :
      CycleSpec s increment x st outcome (.rotated g w)
  | finished (pending g : Generation) (result : PatchResult) (ticks : List Tick) (w : World)
      (given : x.pending = some pending)
      (prepared : Prepares s increment x.surroundings st.inst.previous pending st.world
        (⟨g, .ok result, ticks⟩, w)) :
      CycleSpec s increment x st (x.surroundings.finished s w result).1
        (.rotated g (x.surroundings.finished s w result).2)

/-- **Every cycle goes one of these ways**, as long as the previous generation is honest. -/
theorem cycle_spec (s : CycleSettings) (increment : Nat) (x : CycleInput) (st : Situation)
    (hprevious : ∀ old, st.inst.previous = some old → old.Honest) :
    CycleSpec s increment x st (cycle s increment x st).1.outcome (cycle s increment x st).2 := by
  obtain ⟨pending, e⟩ := x
  cases pending with
  | none => exact .empty rfl
  | some pending =>
    have hprepared : Prepares s increment e st.inst.previous pending st.world
        (prepare (e.collaborators increment) s st.inst.previous pending st.world) :=
      prepare_spec e pending st.world hprevious
    rw [cycle_eq]
    generalize prepare (e.collaborators increment) s st.inst.previous pending st.world = r
      at hprepared ⊢
    obtain ⟨⟨g, outcome | result, ticks⟩, w⟩ := r
    · exact .ended pending g outcome ticks w rfl hprepared
    · obtain ⟨houtcome, hworld⟩ := Prod.mk.inj (finish_spec s increment e w result)
      simp only [Surroundings.conclude, houtcome, hworld]
      exact .finished pending g result ticks w rfl hprepared

end Rollout
