import Rollout.CommandLine.Run
import Rollout.Proofs.Cycle.Run
import Rollout.Proofs.Render.Files
import Rollout.Proofs.System.Reading
import Rollout.System.Machine

/-!
# Proofs/CommandLine/Agreement — three commands on one state

`check`, `diff` and `apply` build the same generation in ways of their own.  What is common to them is
brought out by saying what is left of each once the build is done: `printValid`, `printChanges`, and
`printReport` of `replaceAndReload`.  The last two take the rendered files as an argument, and the
headline is that both are given the same.
-/

namespace Rollout

/-! ## Parsing templates -/

section Parse

variable {σ : Type} [HasFileTree σ]

theorem TemplateSet.add_leavesAlone (info : TemplateInfo) (builtin : Template)
    (source : TemplateSource) (s : TemplateSet) :
    LeavesAlone (add info builtin source s : StateM σ _) := by
  cases source with
  | embedded => exact .pure _
  | file path =>
    refine (readText_looks path).leavesAlone.bind fun r => ?_
    cases r <;> exact .pure _

/-- **Parsing templates changes nothing.** -/
theorem Renderer.parse_leavesAlone (r : Renderer) : LeavesAlone (r.parse : StateM σ _) := by
  refine .bind (TemplateSet.add_leavesAlone _ _ _ _) fun filter => ?_
  cases filter with
  | error e => exact .pure _
  | ok filter =>
    refine .bind (TemplateSet.add_leavesAlone _ _ _ _) fun main => ?_
    cases main with
    | error e => exact .pure _
    | ok main =>
      refine .bind (TemplateSet.add_leavesAlone _ _ _ _) fun maps => ?_
      cases maps <;> exact .pure _

theorem Deployment.parseTemplates_leavesAlone (d : Deployment) :
    LeavesAlone (d.parseTemplates : StateM σ _) :=
  d.renderer.parse_leavesAlone.bind fun _ => .pure _

end Parse

/-! ## A first cycle -/

/-- Go on with rendered files, if rendering succeeded. -/
def withRendered {m : Type → Type} [Monad m] {α : Type} (next : List Artifact → m (Except RenderError α))
    (files : Except RenderError (List Artifact)) : m (Except RenderError α) :=
  match files with
  | .error e => pure (.error e)
  | .ok artifacts => next artifacts

/-- **The generation that a first cycle leaves behind**: nothing runs that could be patched, so every
backend is padded, and ordered after that if that is asked for. -/
def Settings.firstGeneration (s : Settings) (built : Generation) : Generation :=
  s.cycle.arrange (built.mapBackends (Backend.pad s.slotIncrement))

section Cycle

variable {m : Type → Type} [Monad m] [LawfulMonad m] [FileSystem m] [LocalSockets m] [Launcher m]
  [Journal m] [Clock m]

/-- **Write rendered files and have the proxy reload them.** -/
def replaceAndReload (c : Collaborators m) (s : CycleSettings)
    (files : Except RenderError (List Artifact)) : m Report := do
  let written ← withRendered writeArtifacts files
  let tick ← c.pass .written
  match written with
  | .error e => do
    Journal.note (.writeFailed e)
    pure ⟨.writeFailed e, [tick]⟩
  | .ok _ => do
    let r ← finish c s (.reloadRequired 0)
    pure ⟨r.outcome, tick :: r.ticks⟩

/-- A cycle that cannot build its generation. -/
def reportBuildFailure (phase : BuildPhase) (error : BuildError) : m Report := do
  Journal.note (.buildFailed phase error)
  pure ⟨.buildFailed phase error, []⟩

omit [LawfulMonad m] [LocalSockets m] [Launcher m] [Journal m] [Clock m] in
theorem Renderer.write_eq (r : Renderer) (g : Generation) :
    (r.write g : m _) = withRendered writeArtifacts (r.render g) := by
  rw [write]
  cases r.render g <;> rfl

/-- A deployment whose last cycle left a generation behind. -/
def Deployment.rotated (d : Deployment) (g : Generation) : Deployment :=
  { d with generations := { previous := some g } }

/-- What the writer of a deployment answers. -/
def writeAnswer : Except RenderError (List Replaced) → Except RenderError Unit :=
  Except.map fun _ => ()

/-- **The writer of a deployment renders, and hands the rendered files on.** -/
theorem Deployment.write_eq (d : Deployment) (g : Generation) :
    (d.collaborators.write g : m _)
      = writeAnswer <$> withRendered writeArtifacts (d.renderer.render g) := by
  rw [← Renderer.write_eq, map_eq_pure_bind]
  refine bind_congr fun r => ?_
  cases r <;> rfl

/-- **What a first cycle does with a built generation**: it pads and orders it, and writes it. -/
theorem Deployment.applyBuilt_first (d : Deployment) (built : Generation) :
    (applyBuilt d.collaborators d.settings.cycle none built : m _)
      = writePatched d.collaborators (.reloadRequired 0) (d.settings.firstGeneration built) := by
  have hpatch : (d.collaborators.patch none built : m _)
      = pure (.reloadRequired 0, built.mapBackends (Backend.pad d.settings.slotIncrement)) := by
    simp only [collaborators, patch, Option.bind_none, map_pure, padForReload]
  simp only [applyBuilt, Option.filter_none, hpatch, pure_bind]
  rfl

/-- A first cycle has no generation to compare with. -/
theorem Deployment.update_of_none {d : Deployment} {g : Generation}
    (hfirst : d.generations.previous = none) :
    ((d.replace g).update : m _) = (do
      let p ← prepare d.collaborators d.settings.cycle none g
      match p.next with
      | .error outcome => pure (⟨outcome, p.ticks⟩, d.rotated p.generation)
      | .ok result => do
        let r ← finish d.collaborators d.settings.cycle result
        pure (⟨r.outcome, p.ticks ++ r.ticks⟩, d.rotated p.generation)) := by
  obtain ⟨settings, renderer, previous, pending⟩ := d
  obtain rfl : previous = none := hfirst
  simp only [update, replace, Instance.replace, Instance.update, bind_assoc]
  refine bind_congr fun p => ?_
  cases p.next with
  | error outcome => rw [pure_bind]; rfl
  | ok result => simp only [bind_assoc, pure_bind]; rfl

/-- **A first cycle builds its generation, pads and orders it, writes its files and reloads.** -/
theorem Deployment.update_first {d : Deployment} {g : Generation}
    (hfirst : d.generations.previous = none) :
    ((d.replace g).update : m _) = match g.build with
      | (.error (phase, error), left) => (·, d.rotated left) <$> reportBuildFailure phase error
      | (.ok (), built) => (·, d.rotated (d.settings.firstGeneration built)) <$>
          replaceAndReload d.collaborators d.settings.cycle
            (d.renderer.render (d.settings.firstGeneration built)) := by
  rw [update_of_none hfirst, prepare_eq]
  rcases g.build with ⟨⟨phase, error⟩ | ⟨⟩, built⟩
  · simp only [reportBuildFailure, bind_assoc, pure_bind, map_bind, map_pure]
  · simp only [applyBuilt_first, writePatched, PatchResult.needsWrite, if_true, replaceAndReload,
      write_eq, bind_assoc, map_bind, bind_map_left, writeAnswer]
    refine bind_congr fun written => bind_congr fun tick => ?_
    cases written with
    | error e => simp only [Except.map, bind_assoc, pure_bind, map_bind, map_pure]
    | ok rs => simp only [Except.map, pure_bind, map_bind, map_pure]; rfl

end Cycle

namespace CommandLine

/-! ## What is left of each command -/

/-- How a command fails that cannot build its generation. -/
def buildFailure (phase : BuildPhase) (error : BuildError) : Failure where
  context := "error building " ++ phase.word
  causes := [error.message]

/-- **Building on the command line is building in a cycle.** -/
theorem build_eq (g : Generation) : build g = match g.build with
    | (.error (phase, error), _) => .error (buildFailure phase error)
    | (.ok (), built) => .ok built := by
  rw [build, Generation.build]
  rcases g.buildFrontends with ⟨_ | ⟨⟩, g₁⟩
  · rfl
  · rcases hb : g₁.buildBackends with ⟨_ | ⟨⟩, g₂⟩
    · simp only [hb]
      rfl
    · simp only [hb]

/-- Print that a built generation is valid, if it can be rendered. -/
def printValid (built : Generation) (files : Except RenderError (List Artifact)) : Exit :=
  match withContext "failed to render configuration" RenderError.causes files with
  | .error failure => failure.exit
  | .ok artifacts =>
    { output := validText built.state.hosts.length built.backends.length artifacts.length }

section

variable {m : Type → Type} [Monad m] [FileSystem m]

/-- **Compare rendered files with those on disk, and print the changes.** -/
def printChanges (files : Except RenderError (List Artifact)) : m Exit :=
  stepThen (withContext "diff failed" RenderError.causes <$> withRendered compareArtifacts files)
    fun changes => pure { output := changesText changes }

/-- **Run a cycle, and print its report.** -/
def printReport [Clock m] (json : Bool) (cycle : m Report) : m Exit := do
  let started ← Clock.micros
  let r ← cycle
  let ended ← Clock.micros
  let output := if json then reportJson started ended r else reportText started r
  if r.outcome.isSuccess then pure { output }
  else pure (Failure.exit ⟨"update cycle failed: " ++ r.outcome.label, []⟩ output)

end

/-! ## The three commands -/

section Commands

variable {σ : Type} {w : σ}

/-- A step that succeeds and changes nothing goes over to the next one. -/
theorem stepThen_of_ok {α : Type} {step : StateM σ (Except Failure α)} {next : α → StateM σ Exit}
    {a : α} (h : step w = (.ok a, w)) : stepThen step next w = next a w := by
  simp only [stepThen, bind, StateT.bind, h]

/-- A step that fails and changes nothing ends the command. -/
theorem stepThen_of_error {α : Type} {step : StateM σ (Except Failure α)}
    {next : α → StateM σ Exit} {failure : Failure} (h : step w = (.error failure, w)) :
    stepThen step next w = (failure.exit, w) := by
  simp only [stepThen, bind, StateT.bind, h]
  rfl

variable [HasFileTree σ] {s : Settings} {d : Deployment} {state : DesiredState}

/-- The templates of some settings, if they parse. -/
theorem parseTemplates_eq
    (h : ((Deployment.ofSettings s).parseTemplates : StateM σ _) w = ((.ok (), d), w)) :
    (parseTemplates s : StateM σ _) w = (.ok d, w) := by
  simp only [parseTemplates, bind, StateT.bind, h]
  rfl

/-- Parsing templates sets up a deployment before its first cycle. -/
theorem eq_of_parseTemplates
    (h : (((Deployment.ofSettings s).parseTemplates : StateM σ _) w).1 = (.ok (), d)) :
    d.settings = s ∧ d.generations.previous = none := by
  obtain rfl : { Deployment.ofSettings s with
      renderer := (((Deployment.ofSettings s).renderer.parse : StateM σ _) w).1.2 } = d :=
    congrArg Prod.snd h
  exact ⟨rfl, rfl⟩

/-- The generation of a state file, if it holds a state. -/
theorem loadGeneration_eq (h : StateFormat.yaml.loaded (HasFileTree.tree w) s.stateFile = .ok state) :
    (loadGeneration s : StateM σ _) w = (.ok (.ofState state), w) := by
  have hload : (StateFormat.yaml.load s.stateFile : StateM σ _) w = (.ok state, w) :=
    (StateFormat.load_looks _ _ w).trans (congrArg (·, w) h)
  simp only [loadGeneration, bind, StateT.bind, hload]
  rfl

variable [LocalSockets (StateM σ)] [Launcher (StateM σ)] [Journal (StateM σ)] [Clock (StateM σ)]

omit [LocalSockets (StateM σ)] [Launcher (StateM σ)] [Clock (StateM σ)] [HasFileTree σ] in
/-- **What a comparison takes for the first generation** is what a first cycle leaves behind. -/
theorem firstGeneration_eq (built : Generation) :
    (firstGeneration s built : StateM σ _) = pure (s.firstGeneration built) := by
  simp only [firstGeneration, patch, Option.bind_none, map_pure, padForReload, pure_bind,
    Settings.firstGeneration]

/-- **Running a cycle on the command line** prints its report. -/
theorem apply_eq (json : Bool) (hdeployment : (parseTemplates s : StateM σ _) w = (.ok d, w))
    (hgeneration : (loadGeneration s : StateM σ _) w = (.ok (.ofState state), w)) :
    (apply json s : StateM σ _) w
      = (printReport json (Prod.fst <$> (d.replace (.ofState state)).update) : StateM σ _) w := by
  rw [apply, stepThen_of_ok hgeneration, stepThen_of_ok hdeployment, printReport]
  simp only [bind_map_left]

/-- **Headline: `check`, `diff` and `apply` agree.**  The templates parse and the state file holds a
state.  If a phase fails on it, then all three stop there with the same error: the first two fail with it
and `apply` reports it.  Otherwise all three get beyond building.  Then the files that `diff` compares are
the files that the cycle of `apply` writes, one and the same list or failure to render it: that of the
built generation, padded and ordered as the settings say, whatever control socket there is.

The templates are those of this library's engine, `Template`, which knows neither the time nor chance.  What
they print plays no part: both commands make the same call of the renderer. -/
theorem check_diff_apply_agree
    (hparse : (((Deployment.ofSettings s).parseTemplates : StateM σ _) w).1 = (.ok (), d))
    (hload : StateFormat.yaml.loaded (HasFileTree.tree w) s.stateFile = .ok state) :
    (∀ phase error left, (Generation.ofState state).build = (.error (phase, error), left) →
      (check s : StateM σ _) w = ((buildFailure phase error).exit, w) ∧
      (diff s : StateM σ _) w = ((buildFailure phase error).exit, w) ∧
      ∀ json, (apply json s : StateM σ _) w
        = (printReport json (reportBuildFailure phase error) : StateM σ _) w) ∧
    ∀ built, (Generation.ofState state).build = (.ok (), built) →
      (check s : StateM σ _) w = (printValid built (d.renderer.render built), w) ∧
      (diff s : StateM σ _) w
        = (printChanges (d.renderer.render (s.firstGeneration built)) : StateM σ _) w ∧
      ∀ json, (apply json s : StateM σ _) w
        = (printReport json (replaceAndReload d.collaborators s.cycle
            (d.renderer.render (s.firstGeneration built))) : StateM σ _) w := by
  obtain ⟨hsettings, hfirst⟩ := eq_of_parseTemplates hparse
  have hdeployment : (parseTemplates s : StateM σ _) w = (.ok d, w) :=
    parseTemplates_eq ((Deployment.parseTemplates_leavesAlone _).eq_of_fst hparse)
  have hgeneration : (loadGeneration s : StateM σ _) w = (.ok (.ofState state), w) :=
    loadGeneration_eq hload
  refine ⟨fun phase error left hbuild => ?_, fun built hbuild => ?_⟩
  · have hfailed : (pure (build (.ofState state)) : StateM σ _) w
        = (.error (buildFailure phase error), w) := by
      rw [build_eq, hbuild]
      rfl
    refine ⟨?_, ?_, fun json => ?_⟩
    · rw [check, stepThen_of_ok hdeployment, stepThen_of_ok hgeneration, stepThen_of_error hfailed]
    · rw [diff, stepThen_of_ok hdeployment, stepThen_of_ok hgeneration, stepThen_of_error hfailed]
    · rw [apply_eq json hdeployment hgeneration, Deployment.update_first hfirst, hbuild,
        Functor.map_map]
      simp only [id_map']
  · have hbuilt : (pure (build (.ofState state)) : StateM σ _) w = (.ok built, w) := by
      rw [build_eq, hbuild]
      rfl
    refine ⟨?_, ?_, fun json => ?_⟩
    · rw [check, stepThen_of_ok hdeployment, stepThen_of_ok hgeneration, stepThen_of_ok hbuilt,
        printValid]
      cases withContext "failed to render configuration" RenderError.causes
        (d.renderer.render built) <;> rfl
    · rw [diff, stepThen_of_ok hdeployment, stepThen_of_ok hgeneration, stepThen_of_ok hbuilt,
        firstGeneration_eq, pure_bind, printChanges, Renderer.compare]
      cases d.renderer.render (s.firstGeneration built) <;> rfl
    · rw [apply_eq json hdeployment hgeneration, Deployment.update_first hfirst, hbuild, hsettings,
        Functor.map_map]
      simp only [id_map']

end Commands

/-- A machine that holds a state file, two servers of which are out of order. -/
def unorderedMachine : Machine where
  tree := ({} : FileTree).placeFile "state.yaml" ("backends:\n- id: web\n  endpoints:\n"
    ++ "  - {ip: 10.0.0.2, port: 80}\n  - {ip: 10.0.0.1, port: 80}\n").toUTF8

/-- Settings that order the servers, pad their number to four and name a control socket. -/
def orderingSettings : Settings where
  stateFile := "state.yaml"
  configFile := "haproxy.cfg"
  configDir := "."
  mapsDir := "maps"
  sortBackends := true
  slotIncrement := 4
  controlSocket := some "admin.sock"

/-- Settings that order, pad and name a control socket: what is compared is what is written. -/
theorem check_diff_apply_agree_unordered :
    let s := orderingSettings
    let w := unorderedMachine
    let d : Deployment := { settings := s, renderer := .builtin s.layout }
    ∃ state built, StateFormat.yaml.loaded w.tree s.stateFile = .ok state ∧
      (Generation.ofState state).build = (.ok (), built) ∧
      (diff s : StateM Machine _) w
        = (printChanges (d.renderer.render (s.firstGeneration built)) : StateM Machine _) w ∧
      ∀ json, (apply json s : StateM Machine _) w
        = (printReport json (replaceAndReload d.collaborators s.cycle
            (d.renderer.render (s.firstGeneration built))) : StateM Machine _) w := by
  intro s w d
  let state : DesiredState := { backends := [{ id := "web", servers := [
    { ip := "10.0.0.2", port := 80 }, { ip := "10.0.0.1", port := 80 }] }] }
  have hload : StateFormat.yaml.loaded w.tree s.stateFile = .ok state := by decide +kernel
  have hbuild : (Generation.ofState state).build
      = (.ok (), (Generation.ofState state).build.2) := Prod.ext (by decide +kernel) rfl
  have hparse : (((Deployment.ofSettings s).parseTemplates : StateM Machine _) w).1
      = (.ok (), d) := rfl
  obtain ⟨-, hdiff, happly⟩ := (check_diff_apply_agree hparse hload).2 _ hbuild
  exact ⟨state, _, hload, hbuild, hdiff, happly⟩

end CommandLine

end Rollout
