/-!
# Diff/Script — the way from one list of lines to another

A script is a list of runs: lines that both texts have, lines that only the old one has, lines that
only the new one has.  `script` finds a shortest one by following, from both ends at once, how far
each diagonal can be reached with so many changes; where the two searches meet, the texts are cut and
both halves are treated alike.
-/

namespace Rollout.Diff

/-- What becomes of the lines of a run. -/
inductive Kind where
  | keep
  | drop
  | add
  deriving DecidableEq, Repr, Inhabited

/-- **A run of lines**, with the places in both texts where it starts. -/
structure Run where
  kind : Kind
  oldStart : Nat
  newStart : Nat
  count : Nat
  deriving DecidableEq, Repr, Inhabited

namespace Run

/-- How many lines of the old text the run covers. -/
def oldCount (r : Run) : Nat := if r.kind = .add then 0 else r.count

/-- How many lines of the new text the run covers. -/
def newCount (r : Run) : Nat := if r.kind = .drop then 0 else r.count

/-- Where the run ends in the old text. -/
def oldEnd (r : Run) : Nat := r.oldStart + r.oldCount

/-- Where the run ends in the new text. -/
def newEnd (r : Run) : Nat := r.newStart + r.newCount

end Run

/-- The lines of both texts. -/
structure Texts where
  old : Array String
  new : Array String

namespace Texts

/-- Is line `i` of the old text line `j` of the new one? -/
def same (t : Texts) (i j : Nat) : Bool :=
  match t.old[i]?, t.new[j]? with
  | some a, some b => a == b
  | _, _ => false

/-- How many lines, no more than `limit`, agree from `i` and `j` on. -/
def agreeForward (t : Texts) : (limit i j : Nat) → Nat
  | 0, _, _ => 0
  | limit + 1, i, j => if t.same i j then agreeForward t limit (i + 1) (j + 1) + 1 else 0

/-- How many lines, no more than `limit`, agree right before `i` and `j`. -/
def agreeBackward (t : Texts) : (limit i j : Nat) → Nat
  | 0, _, _ => 0
  | limit + 1, i, j =>
    if 0 < i ∧ 0 < j ∧ t.same (i - 1) (j - 1) then agreeBackward t limit (i - 1) (j - 1) + 1
    else 0

end Texts

/-- A part of both texts that is still to be compared. -/
structure Box where
  oldStart : Nat
  oldEnd : Nat
  newStart : Nat
  newEnd : Nat
  deriving Repr

namespace Box

/-- The number of old lines. -/
def width (b : Box) : Nat := b.oldEnd - b.oldStart

/-- The number of new lines. -/
def height (b : Box) : Nat := b.newEnd - b.newStart

/-- How many lines at the front agree. -/
def commonStart (b : Box) (t : Texts) : Nat :=
  t.agreeForward (min b.width b.height) b.oldStart b.newStart

/-- How many lines at the end agree. -/
def commonEnd (b : Box) (t : Texts) : Nat :=
  t.agreeBackward (min b.width b.height) b.oldEnd b.newEnd

end Box

/-! ## Where two searches meet -/

/-- How far each diagonal has been reached. -/
structure Frontier where
  offset : Nat
  reach : Array Nat

namespace Frontier

/-- A frontier with room for the diagonals from `-n` to `n`. -/
def empty (n : Nat) : Frontier := ⟨n, Array.replicate (2 * n + 1) 0⟩

/-- The place of a diagonal. -/
def index (f : Frontier) (k : Int) : Nat := (k + f.offset).toNat

/-- How far a diagonal has been reached. -/
def get (f : Frontier) (k : Int) : Nat := f.reach.getD (f.index k) 0

/-- Note how far a diagonal has been reached. -/
def set (f : Frontier) (k : Int) (x : Nat) : Frontier :=
  { f with reach := f.reach.setIfInBounds (f.index k) x }

/-- Where the search enters diagonal `k` with change number `d`: from the neighbour that has been
reached further. -/
def enter (f : Frontier) (d : Nat) (k : Int) : Nat :=
  if k = -d ∨ (k ≠ d ∧ f.get (k - 1) < f.get (k + 1)) then f.get (k + 1) else f.get (k - 1) + 1

end Frontier

/-- Both searches. -/
structure Search where
  forward : Frontier
  backward : Frontier

/-- The diagonals that `d` changes can reach, from the highest down. -/
def diagonals (d : Nat) : List Int := (List.range (d + 1)).map fun (i : Nat) => (d : Int) - 2 * (i : Int)

/-- The number of old lines less the number of new lines. -/
def Box.delta (b : Box) : Int := (b.width : Int) - b.height

/-- Extend the forward search by one change on each of the diagonals, up to the first meeting
with the backward search. -/
def stepForward (t : Texts) (b : Box) (d : Nat) : List Int → Search → Except (Nat × Nat) Search
  | [], s => .ok s
  | k :: ks, s =>
    let x := s.forward.enter d k
    let y := ((x : Int) - k).toNat
    let reached :=
      if x < b.width ∧ y < b.height then
        x + t.agreeForward (min (b.width - x) (b.height - y)) (b.oldStart + x) (b.newStart + y)
      else x
    let s := { s with forward := s.forward.set k reached }
    let mirrored := k - b.delta
    if b.delta % 2 ≠ 0 ∧ (mirrored.natAbs : Int) ≤ (d : Int) - 1
        ∧ b.width ≤ reached + s.backward.get (-mirrored) then
      .error (b.oldStart + x, b.newStart + y)
    else stepForward t b d ks s

/-- Extend the backward search by one change on each of the diagonals, up to the first meeting
with the forward search. -/
def stepBackward (t : Texts) (b : Box) (d : Nat) : List Int → Search → Except (Nat × Nat) Search
  | [], s => .ok s
  | k :: ks, s =>
    let x := s.backward.enter d k
    let y := ((x : Int) - k).toNat
    let advance :=
      if x < b.width ∧ y < b.height then
        t.agreeBackward (min (b.width - x) (b.height - y)) (b.oldEnd - x) (b.newEnd - y)
      else 0
    let reached := x + advance
    let s := { s with backward := s.backward.set k reached }
    let mirrored := k - b.delta
    if b.delta % 2 = 0 ∧ mirrored.natAbs ≤ d
        ∧ b.width ≤ reached + s.forward.get (-mirrored) then
      .error (b.oldEnd - reached, b.newEnd - (y + advance))
    else stepBackward t b d ks s

/-- Search with `d` changes, then with more, `fuel` times at most. -/
def searchFrom (t : Texts) (b : Box) : (fuel d : Nat) → Search → Option (Nat × Nat)
  | 0, _, _ => none
  | fuel + 1, d, s =>
    match stepForward t b d (diagonals d) s with
    | .error meeting => some meeting
    | .ok s =>
      match stepBackward t b d (diagonals d) s with
      | .error meeting => some meeting
      | .ok s => searchFrom t b fuel (d + 1) s

/-- **Where to cut a box**: a place on a shortest way through it. -/
def Box.middle? (b : Box) (t : Texts) : Option (Nat × Nat) :=
  let limit := (b.width + b.height + 1) / 2 + 1
  searchFrom t b limit 0 ⟨Frontier.empty (limit + 1), Frontier.empty (limit + 1)⟩

/-! ## The script -/

/-- A run, or nothing if it has no lines. -/
def runOf (kind : Kind) (oldStart newStart count : Nat) : List Run :=
  if count = 0 then [] else [⟨kind, oldStart, newStart, count⟩]

/-- The runs of a box: the lines that agree at its front and end, and between them the runs of
what is left. -/
def runs (t : Texts) : (fuel : Nat) → Box → List Run
  | 0, _ => []
  | fuel + 1, b =>
    let start := b.commonStart t
    let c : Box := { b with oldStart := b.oldStart + start, newStart := b.newStart + start }
    let rest := c.commonEnd t
    let c : Box := { c with oldEnd := c.oldEnd - rest, newEnd := c.newEnd - rest }
    let dropped := runOf .drop c.oldStart c.newStart c.width
    let added := runOf .add c.oldStart c.newStart c.height
    let between :=
      if c.width = 0 ∨ c.height = 0 then dropped ++ added
      else
        match c.middle? t with
        | some (x, y) =>
          runs t fuel { c with oldEnd := x, newEnd := y }
            ++ runs t fuel { c with oldStart := x, newStart := y }
        | none => dropped ++ added
    runOf .keep b.oldStart b.newStart start ++ between ++ runOf .keep c.oldEnd c.newEnd rest

/-- **A shortest script from the old text to the new one.** -/
def Texts.script (t : Texts) : List Run :=
  runs t (t.old.size + t.new.size + 1) ⟨0, t.old.size, 0, t.new.size⟩

end Rollout.Diff
