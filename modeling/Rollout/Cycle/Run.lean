import Rollout.Cycle.Outcome
import Rollout.Generation.Build
import Rollout.Patch.Apply

/-!
# Cycle/Run — one cycle of the configuration

An `Instance` holds two generations: the pending one, which callers fill, and the previous one.
`Instance.update` builds the pending generation, compares it with the previous one, patches or
writes, makes it the previous one whatever happened, and last validates or reloads.  What it does
to the world goes through its `Collaborators`.
-/

namespace Rollout

/-- **Those who act on the world for a cycle.** -/
structure Collaborators (m : Type → Type) where
  /-- Bring the running proxy from the previous generation to the pending one. -/
  patch : Option Generation → Generation → m (PatchResult × Generation)
  /-- Write every file of a generation. -/
  write : Generation → m (Except RenderError Unit)
  /-- Have the proxy check the written files. -/
  validate : m (Except ProcessError Unit)
  /-- Have the proxy pick up the written files. -/
  reload : m (Except ProcessError Unit)
  /-- The time, in microseconds. -/
  clock : m Nat

/-- The two generations of an instance. -/
structure Instance where
  previous : Option Generation := none
  pending : Option Generation := none
  deriving DecidableEq, Repr, Inhabited

/-- What a cycle may be asked to do beyond its work. -/
structure CycleSettings where
  /-- Order the servers of every backend by address before writing. -/
  sortBackends : Bool := false
  /-- Validate the files after a patch. -/
  validateConfig : Bool := false
  deriving DecidableEq, Repr

/-- Where the first half of a cycle leaves the pending generation: done, with the outcome, or
patched. -/
structure Prepared where
  generation : Generation
  next : Except Outcome PatchResult
  ticks : List Tick := []

/-- Order the servers of every backend, if asked to. -/
def CycleSettings.arrange (s : CycleSettings) (g : Generation) : Generation :=
  if s.sortBackends then g.mapBackends Backend.sortServers else g

variable {m : Type → Type} [Monad m] [Journal m]

/-- Pass a checkpoint now. -/
def Collaborators.pass (c : Collaborators m) (p : Checkpoint) : m Tick := do
  return ⟨p, ← c.clock⟩

/-- Write a patched generation if its patch result asks for it. -/
def writePatched (c : Collaborators m) (result : PatchResult) (g : Generation) : m Prepared :=
  if result.needsWrite then do
    let written ← c.write g
    let tick ← c.pass .written
    match written with
    | .ok () => pure ⟨g, .ok result, [tick]⟩
    | .error e => do
      Journal.note (.writeFailed e)
      pure ⟨g, .error (.writeFailed e), [tick]⟩
  else pure ⟨g, .ok result, []⟩

/-- Patch and write a generation that is built, unless it serves the same as the previous one. -/
def applyBuilt (c : Collaborators m) (s : CycleSettings) (previous : Option Generation)
    (g : Generation) : m Prepared :=
  match previous.filter g.serves with
  | some old => pure ⟨g.adoptServers old, .error .unchanged, []⟩
  | none => do
    let (result, g) ← c.patch previous g
    writePatched c result (s.arrange g)

/-- Build one phase, or end the cycle. -/
def prepare (c : Collaborators m) (s : CycleSettings) (previous : Option Generation)
    (g : Generation) : m Prepared :=
  match g.buildFrontends with
  | (.error e, g) => do
    Journal.note (.buildFailed .frontends e)
    pure ⟨g, .error (.buildFailed .frontends e), []⟩
  | (.ok (), g) =>
    match g.buildBackends with
    | (.error e, g) => do
      Journal.note (.buildFailed .backends e)
      pure ⟨g, .error (.buildFailed .backends e), []⟩
    | (.ok (), g) => applyBuilt c s previous g

/-- Validate the files behind a patch.  The proxy runs already, so a complaint is only noted. -/
def validatePatched (c : Collaborators m) : m (List Tick) := do
  match ← c.validate with
  | .ok () => pure ()
  | .error e => Journal.note (.validationFailed e)
  return [← c.pass .validated]

/-- The second half of a cycle: validate a patched proxy, or reload it. -/
def finish (c : Collaborators m) (s : CycleSettings) : PatchResult → m Report
  | .applied 0 => do
    Journal.note .nothingToChange
    pure ⟨.appliedLive 0, []⟩
  | .applied commands => do
    let ticks ← if s.validateConfig then validatePatched c else pure []
    Journal.note (.patched commands)
    pure ⟨.appliedLive commands, ticks⟩
  | .reloadRequired _ => do
    match ← c.reload with
    | .ok () => do
      let tick ← c.pass .reloaded
      Journal.note .reloaded
      pure ⟨.reloaded, [tick]⟩
    | .error e => do
      Journal.note (.reloadFailed e)
      pure ⟨.reloadFailed e, []⟩

namespace Instance

/-- The pending generation, empty if there is none. -/
def pendingOrEmpty (i : Instance) : Generation := i.pending.getD {}

/-- Make a generation the pending one. -/
def replace (g : Generation) (i : Instance) : Instance := { i with pending := some g }

/-- **One cycle.**  Without a pending generation nothing happens; otherwise it becomes the
previous one, whatever the outcome. -/
def update (c : Collaborators m) (s : CycleSettings) (i : Instance) : m (Report × Instance) :=
  match i.pending with
  | none => do
    Journal.note .nothingPending
    pure (⟨.empty, []⟩, i)
  | some g => do
    let p ← prepare c s i.previous g
    let rotated : Instance := { previous := some p.generation, pending := none }
    match p.next with
    | .error outcome => pure (⟨outcome, p.ticks⟩, rotated)
    | .ok result => do
      let r ← finish c s result
      pure (⟨r.outcome, p.ticks ++ r.ticks⟩, rotated)

end Instance

end Rollout
