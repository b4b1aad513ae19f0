import Rollout.Note
import Rollout.Proofs.Generation.Sound

/-!
# Proofs/Generation/Phases — both phases as one

`Generation.build` runs the phases one after the other.  It succeeds with a built generation of the
same desired state, and there is only one such (`build_eq_ok_iff`, `IsBuilt.eq_of_state`); when it
fails it leaves a generation that lacks an artifact (`isUnfinished_of_build`).
-/

namespace Rollout.Generation

/-- **Run both phases.**  The first that fails is the result; the generation keeps what was set and
cleared. -/
def build (g : Generation) : Except (BuildPhase × BuildError) Unit × Generation :=
  match g.buildFrontends with
  | (.error e, g) => (.error (.frontends, e), g)
  | (.ok (), g) =>
    match g.buildBackends with
    | (.error e, g) => (.error (.backends, e), g)
    | (.ok (), g) => (.ok (), g)

/-- A generation that lacks an artifact. -/
def IsUnfinished (g : Generation) : Prop := g.frontends = none ∨ g.pathMaps = none

/-- **How building goes**, phase by phase. -/
inductive BuildSpec (g : Generation) : Except (BuildPhase × BuildError) Unit × Generation → Prop where
  | frontends (e : BuildError) (failed : g.state.frontendGroup = .error e) :
      BuildSpec g (.error (.frontends, e), { g with frontends := none })
  | backends (f : FrontendGroup) (e : BuildError) (grouped : g.state.frontendGroup = .ok f)
      (failed : g.state.backendMaps = .error e) :
      BuildSpec g (.error (.backends, e), { g with frontends := some f, pathMaps := none })
  | both (f : FrontendGroup) (ms : List MapFile) (grouped : g.state.frontendGroup = .ok f)
      (mapped : g.state.backendMaps = .ok ms) :
      BuildSpec g (.ok (), { g with frontends := some f, pathMaps := some ms })

theorem build_spec (g : Generation) : g.BuildSpec g.build := by
  rcases g.buildFrontends_cases with ⟨f, hgroup, hf⟩ | ⟨e, hgroup, hf⟩
  · rcases buildBackends_cases { g with frontends := some f } with ⟨ms, hmaps, hb⟩ | ⟨e, hmaps, hb⟩
    · rw [build, hf]
      simp only [hb]
      exact .both f ms hgroup hmaps
    · rw [build, hf]
      simp only [hb]
      exact .backends f e hgroup hmaps
  · rw [build, hf]
    exact .frontends e hgroup

variable {g h : Generation}

/-- **A failure leaves a generation that lacks an artifact**, whatever the generation carried
before. -/
theorem isUnfinished_of_build {e : BuildPhase × BuildError} (hfailed : g.build = (.error e, h)) :
    h.IsUnfinished := by
  have hspec := hfailed ▸ g.build_spec
  cases hspec with
  | frontends => exact Or.inl rfl
  | backends => exact Or.inr rfl

/-- A built generation lacks none. -/
theorem IsBuilt.not_isUnfinished (hg : g.IsBuilt) : ¬ g.IsUnfinished := by
  obtain ⟨hf, hm⟩ := hg.artifacts
  rintro (hnone | hnone)
  · exact nomatch hnone ▸ hf
  · exact nomatch hnone ▸ hm

/-- **A desired state has one built generation.** -/
theorem IsBuilt.eq_of_state (hg : g.IsBuilt) (hh : h.IsBuilt) (hstate : g.state = h.state) :
    g = h := by
  obtain ⟨⟨f, hf, hgf⟩, ms, hms, hgm⟩ := isBuilt_iff.mp hg
  obtain ⟨⟨f', hf', hhf⟩, ms', hms', hhm⟩ := isBuilt_iff.mp hh
  obtain ⟨state, frontends, pathMaps⟩ := g
  obtain ⟨state', frontends', pathMaps'⟩ := h
  obtain rfl : state = state' := hstate
  obtain rfl := Except.ok.inj (hf.symm.trans hf')
  obtain rfl := Except.ok.inj (hms.symm.trans hms')
  obtain rfl : frontends = some f := hgf
  obtain rfl : pathMaps = some ms := hgm
  rw [← hhf, ← hhm]

/-- **Building succeeds with the built generation of the desired state**, and exactly if there is
one. -/
theorem build_eq_ok_iff {built : Generation} :
    g.build = (.ok (), built) ↔ built.IsBuilt ∧ built.state = g.state := by
  have hspec := g.build_spec
  constructor
  · intro hbuild
    rw [hbuild] at hspec
    cases hspec with
    | both f ms grouped mapped => exact ⟨isBuilt_iff.mpr ⟨⟨f, grouped, rfl⟩, ms, mapped, rfl⟩, rfl⟩
  · rintro ⟨hbuilt, hstate⟩
    obtain ⟨⟨f, hf, -⟩, ms, hms, -⟩ := isBuilt_iff.mp hbuilt
    rw [hstate] at hf hms
    generalize g.build = r at hspec
    cases hspec with
    | frontends e failed => exact nomatch failed.symm.trans hf
    | backends f' e grouped failed => exact nomatch failed.symm.trans hms
    | both f' ms' grouped mapped =>
      have hboth : IsBuilt { g with frontends := some f', pathMaps := some ms' } :=
        isBuilt_iff.mpr ⟨⟨f', grouped, rfl⟩, ms', mapped, rfl⟩
      rw [hboth.eq_of_state hbuilt hstate.symm]

end Rollout.Generation
