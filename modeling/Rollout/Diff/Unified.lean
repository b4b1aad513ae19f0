import Rollout.Diff.Slide
import Rollout.Text.Decimal
import Rollout.Text.Lines

/-!
# Diff/Unified — two texts compared on paper

`unified` shows the changes between two texts with three lines around each, in hunks that say which
lines of both texts they cover.  A line without an ending is marked.
-/

namespace Rollout.Diff

/-- **A stretch of both texts**: the same lines, or old lines in whose place new ones stand. -/
structure Stretch where
  isSame : Bool
  oldStart : Nat
  oldCount : Nat
  newStart : Nat
  newCount : Nat
  deriving DecidableEq, Repr, Inhabited

/-- The stretch of kept lines. -/
def keptStretch (oldStart newStart count : Nat) : Stretch :=
  ⟨true, oldStart, count, newStart, count⟩

/-- The changes since the last kept line. -/
structure Changes where
  dropped : Option Run := none
  added : Option Run := none

/-- The stretch that changes make together. -/
def Changes.stretch (c : Changes) : List Stretch :=
  match c.dropped, c.added with
  | some d, some a => [⟨false, d.oldStart, d.count, a.newStart, a.count⟩]
  | some d, none => [⟨false, d.oldStart, d.count, d.newStart, 0⟩]
  | none, some a => [⟨false, a.oldStart, 0, a.newStart, a.count⟩]
  | none, none => []

/-- One more run, joined to those before it. -/
def joinRun (before : Option Run) (r : Run) : Option Run :=
  match before with
  | some b => some (b.grow r.count)
  | none => some r

/-- **The stretches of a script**: neighbouring runs of one kind joined, dropped and added lines
between two kept ones put together. -/
def stretchesFrom (kept : Option Run) (changes : Changes) : List Run → List Stretch
  | [] => ofKept kept ++ changes.stretch
  | r :: rs =>
    match r.kind with
    | .keep =>
      changes.stretch ++ stretchesFrom (joinRun kept r) {} rs
    | .drop =>
      ofKept kept
        ++ stretchesFrom none { changes with dropped := joinRun changes.dropped r } rs
    | .add =>
      ofKept kept
        ++ stretchesFrom none { changes with added := joinRun changes.added r } rs
where
  /-- The stretch of the kept lines so far. -/
  ofKept : Option Run → List Stretch
    | some r => [keptStretch r.oldStart r.newStart r.count]
    | none => []

/-- The stretches of a script. -/
def stretches (rs : List Run) : List Stretch := stretchesFrom none {} rs

/-! ## Hunks -/

/-- So many lines are shown around a change. -/
def context : Nat := 3

/-- The last lines of a kept stretch. -/
def Stretch.lastLines (s : Stretch) : Stretch :=
  let skipped := s.oldCount - context
  keptStretch (s.oldStart + skipped) (s.newStart + skipped) (s.oldCount - skipped)

/-- The first lines of a kept stretch. -/
def Stretch.firstLines (s : Stretch) : Stretch :=
  keptStretch s.oldStart s.newStart (min s.oldCount context)

/-- Cut the kept stretch at the front down to what is shown. -/
def cutFront : List Stretch → List Stretch
  | s :: rest => (if s.isSame then s.lastLines else s) :: rest
  | [] => []

/-- Cut the kept stretch at the end down to what is shown. -/
def cutBack : List Stretch → List Stretch
  | [] => []
  | [s] => [if s.isSame then s.firstLines else s]
  | s :: rest => s :: cutBack rest

/-- Start a new hunk in the middle of every long kept stretch; `hunk` holds the one so far,
reversed. -/
def splitHunks (hunk : List Stretch) : List Stretch → List (List Stretch)
  | [] => [hunk.reverse]
  | s :: rest =>
    if s.isSame && s.oldCount > 2 * context then
      (s.firstLines :: hunk).reverse :: splitHunks [s.lastLines] rest
    else splitHunks (s :: hunk) rest

/-- Does a hunk show a change? -/
def showsChange (hunk : List Stretch) : Bool :=
  match hunk with
  | [] => false
  | [s] => !s.isSame
  | _ => true

/-- **The hunks of a script.** -/
def hunks (ss : List Stretch) : List (List Stretch) :=
  (splitHunks [] (cutBack (cutFront ss))).filter showsChange

/-! ## Text -/

/-- The lines a hunk covers in one text: the first one counted from one, and how many if not
one.  No line at all is the one before. -/
def rangeText (start stop : Nat) : String :=
  let count := stop - start
  if count = 1 then Text.decimal (start + 1)
  else Text.decimal (if count = 0 then start else start + 1) ++ "," ++ Text.decimal count

/-- The head of a hunk. -/
def headText (hunk : List Stretch) : String :=
  match hunk.head?, hunk.getLast? with
  | some a, some b =>
    "@@ -" ++ rangeText a.oldStart (b.oldStart + b.oldCount)
      ++ " +" ++ rangeText a.newStart (b.newStart + b.newCount) ++ " @@\n"
  | _, _ => ""

/-- A line behind its mark. -/
def lineText (mark line : String) : String :=
  mark ++ line ++ if Text.isEnded line then "" else "\n\\ No newline at end of file\n"

/-- The lines of a text from a place on, each behind a mark. -/
def linesText (mark : String) (lines : Array String) (start count : Nat) : String :=
  String.join ((lines.toList.drop start |>.take count).map (lineText mark))

/-- The lines of a stretch. -/
def Stretch.text (t : Texts) (s : Stretch) : String :=
  if s.isSame then linesText " " t.old s.oldStart s.oldCount
  else linesText "-" t.old s.oldStart s.oldCount ++ linesText "+" t.new s.newStart s.newCount

/-- The text of a hunk. -/
def hunkText (t : Texts) (hunk : List Stretch) : String :=
  headText hunk ++ String.join (hunk.map (Stretch.text t))

/-- **The comparison of two texts**, under the names of both; empty if no line differs. -/
def unified (oldName newName old new : String) : String :=
  let t : Texts := ⟨(Text.lines old).toArray, (Text.lines new).toArray⟩
  match hunks (stretches (slide t t.script)) with
  | [] => ""
  | hs => "--- " ++ oldName ++ "\n+++ " ++ newName ++ "\n" ++ String.join (hs.map (hunkText t))

end Rollout.Diff
