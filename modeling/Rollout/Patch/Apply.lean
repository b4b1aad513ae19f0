import Rollout.Control.Channel
import Rollout.Note
import Rollout.Patch.Plan

/-!
# Patch/Apply — patching the running proxy

`patch` plans the difference between two generations and sends it.  When all commands were
accepted the new generation takes the server lists of the running process; otherwise the proxy
has to be reloaded, and every backend is padded with empty slots for later patches.
-/

namespace Rollout

/-- **How an attempt to patch ended.** -/
inductive PatchResult where
  /-- Every change is live; so many commands were sent. -/
  | applied (commands : Nat)
  /-- The proxy must be reloaded; so many commands were accepted before. -/
  | reloadRequired (commands : Nat)
  deriving DecidableEq, Repr

namespace PatchResult

/-- Must the files be written?  A patched process counts too, its files have to catch up. -/
def needsWrite : PatchResult → Bool
  | .applied commands => commands > 0
  | .reloadRequired _ => true

/-- Must the proxy be reloaded? -/
def needsReload : PatchResult → Bool
  | .applied _ => false
  | .reloadRequired _ => true

/-- How many commands were accepted. -/
def commands : PatchResult → Nat
  | .applied n => n
  | .reloadRequired n => n

end PatchResult

variable {m : Type → Type} [Monad m]

/-- **Send commands until one fails.**  Yields how many were accepted and why it stopped. -/
def sendAll (send : Channel m) : List ServerCommand → m (Nat × Option ControlError)
  | [] => pure (0, none)
  | c :: rest => do
    match ← send c.text with
    | .error e => pure (0, some e)
    | .ok _ => do
      let (n, failure) ← sendAll send rest
      pure (n + 1, failure)

/-- Give the planned servers to the backends of a generation. -/
def adoptPlans (plans : List BackendPlan) (g : Generation) : Generation :=
  plans.foldl (fun g p => g.modifyBackend p.id fun b => { b with servers := p.servers }) g

/-- Send a plan and adopt it, or leave the generation alone. -/
def applyPlans [Journal m] (channel : Option (Channel m)) (plans : List BackendPlan)
    (g : Generation) : m (PatchResult × Generation) :=
  match planCommands plans with
  | [] => pure (.applied 0, adoptPlans plans g)
  | commands =>
    match channel with
    | none => pure (.reloadRequired 0, g)
    | some send => do
      match ← sendAll send commands with
      | (n, some e) => do
        Journal.note (.patchFailed e)
        pure (.reloadRequired n, g)
      | (n, none) => pure (.applied n, adoptPlans plans g)

/-- Pad every backend if the attempt ended in a reload. -/
def padForReload (increment : Nat) : PatchResult × Generation → PatchResult × Generation
  | (.reloadRequired n, g) => (.reloadRequired n, g.mapBackends (Backend.pad increment))
  | r => r

/-- **Patch the running proxy from an old generation to a new one.**  Without an old generation,
a plan, or a channel for a plan that needs one, nothing is sent. -/
def patch [Journal m] (channel : Option (Channel m)) (increment : Nat)
    (old : Option Generation) (current : Generation) : m (PatchResult × Generation) :=
  padForReload increment <$>
    match old.bind fun o => planPatch o current with
    | some plans => applyPlans channel plans current
    | none => pure (.reloadRequired 0, current)

end Rollout
