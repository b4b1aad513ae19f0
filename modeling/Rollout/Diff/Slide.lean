import Rollout.Diff.Script

/-!
# Diff/Slide — bringing changes together

A run of added lines may slide along the kept lines next to it where the lines it passes read the
same.  Every change is moved up as far as it goes and then down as far as it goes, and joins the
changes of its kind that it meets; so neighbouring changes end up side by side.  Runs that are
passed over keep their noted places.
-/

namespace Rollout.Diff

/-- **A change among the other runs**: those before it, the nearest first, and those after it. -/
structure Focus where
  before : List Run
  here : Run
  after : List Run

namespace Run

/-- Move a run up by `n` lines. -/
def up (r : Run) (n : Nat) : Run :=
  { r with oldStart := r.oldStart - n, newStart := r.newStart - n }

/-- Move a run down by `n` lines. -/
def down (r : Run) (n : Nat) : Run :=
  { r with oldStart := r.oldStart + n, newStart := r.newStart + n }

/-- Add `n` lines at the end of a run. -/
def grow (r : Run) (n : Nat) : Run := { r with count := r.count + n }

/-- Take `n` lines off the end of a run. -/
def shrink (r : Run) (n : Nat) : Run := { r with count := r.count - n }

end Run

/-- A run before others, unless it has no lines. -/
def consRun (r : Run) (rest : List Run) : List Run := if r.count = 0 then rest else r :: rest

namespace Focus

/-- How many added lines read like the kept lines right before them. -/
def slack (t : Texts) (kept here : Run) : Nat :=
  t.agreeBackward (min kept.oldCount here.newCount) kept.oldEnd here.newEnd

/-- How many added lines read like the kept lines right behind them. -/
def reach (t : Texts) (kept here : Run) : Nat :=
  t.agreeForward (min kept.oldCount here.newCount) kept.oldStart here.newStart

/-- The kept lines behind a change that has moved up by `n`. -/
def keptBehind (kept here : Run) (n : Nat) : List Run → List Run
  | next :: rest =>
    if next.kind = .keep then (next.up n).grow n :: rest
    else ⟨.keep, kept.oldEnd - n, here.newEnd - n, n⟩ :: next :: rest
  | [] => [⟨.keep, kept.oldEnd - n, here.newEnd - n, n⟩]

/-- The kept lines before a change that has moved down by `n`. -/
def keptBefore (kept here : Run) (n : Nat) : List Run → List Run
  | prev :: rest =>
    if prev.kind = .keep then prev.grow n :: rest
    else ⟨.keep, kept.oldStart, here.newStart, n⟩ :: prev :: rest
  | [] => [⟨.keep, kept.oldStart, here.newStart, n⟩]

/-- **Move a change up as far as it goes.** -/
def moveUp (t : Texts) : (fuel : Nat) → Focus → Focus
  | 0, f => f
  | fuel + 1, f =>
    match f.before with
    | [] => f
    | prev :: rest =>
      if prev.kind = .keep then
        let n := slack t prev f.here
        if n > 0 then
          moveUp t fuel {
            before := consRun (prev.shrink n) rest
            here := f.here.up n
            after := keptBehind prev f.here n f.after }
        else if prev.count = 0 then moveUp t fuel { f with before := rest }
        else f
      else if prev.kind = f.here.kind then
        moveUp t fuel { f with before := rest, here := prev.grow f.here.count }
      else moveUp t fuel { f with before := rest, after := prev :: f.after }

/-- **Move a change down as far as it goes.** -/
def moveDown (t : Texts) : (fuel : Nat) → Focus → Focus
  | 0, f => f
  | fuel + 1, f =>
    match f.after with
    | [] => f
    | next :: rest =>
      if next.kind = .keep then
        let n := reach t next f.here
        if n > 0 then
          moveDown t fuel {
            before := keptBefore next f.here n f.before
            here := f.here.down n
            after := consRun ((next.down n).shrink n) rest }
        else if next.count = 0 then moveDown t fuel { f with after := rest }
        else f
      else if next.kind = f.here.kind then
        moveDown t fuel { f with here := f.here.grow next.count, after := rest }
      else moveDown t fuel { f with before := next :: f.before, after := rest }

end Focus

/-- Slide every change of a kind, first to last; `before` holds the runs that are done, the nearest
first. -/
def slideKind (t : Texts) (kind : Kind) : (fuel : Nat) → (before after : List Run) → List Run
  | 0, before, after => before.reverse ++ after
  | _ + 1, before, [] => before.reverse
  | fuel + 1, before, r :: after =>
    if r.kind = kind then
      let reserve := t.old.size + t.new.size + before.length + after.length + 2
      let f := (Focus.mk before r after).moveUp t reserve
      let f := f.moveDown t reserve
      slideKind t kind fuel (f.here :: f.before) f.after
    else slideKind t kind fuel (r :: before) after

/-- **Slide the dropped runs of a script, then the added ones.** -/
def slide (t : Texts) (rs : List Run) : List Run :=
  let fuel := (rs.length + t.old.size + t.new.size + 2) * (rs.length + 2)
  slideKind t .add fuel [] (slideKind t .drop fuel [] rs)

end Rollout.Diff
