import Rollout.System.Tree

/-!
# System/Disk — a disk on which operations are refused

What a `FileTree` refuses, it refuses for what lies where.  On a `Disk` an operation may also be struck by a
`Mishap`: the disk is full, the access is denied, or the power fails.  It is answered with a fault then, and
what it did before stays done: a file holds the front of its new content, some of the directories are made.
A disk remembers the trees that it held, so that it shows what is met between two operations, and the
operations that were struck.
-/

namespace Rollout

namespace FileTree

/-! ## What operations leave behind that break off -/

/-- A file that was not written to its end: it is as it was, or holds the front of its content. -/
def writePart (t : FileTree) (path : String) (content : ByteArray) : (progress : Nat) → FileTree
  | 0 => t
  | n + 1 => (t.write path (content.extract 0 n)).toOption.getD t

/-- A file that was not copied to its end. -/
def copyPart (t : FileTree) (source target : String) : (progress : Nat) → FileTree
  | 0 => t
  | n + 1 => (t.copyCut (·.extract 0 n) source target).toOption.getD t

/-- Directories of which the innermost are not made. -/
def createPart (t : FileTree) (path : String) (missing : Nat) : FileTree :=
  let paths := (ancestors path path.length).drop missing
  (t.createAll paths).toOption.getD (t.leftover paths)

end FileTree

/-- An operation on files. -/
inductive Operation where
  | read (path : String)
  | exists? (path : String)
  | createDirectories (path : String)
  | write (path : String)
  | makePrivate (path : String)
  | remove (path : String)
  | rename (source target : String)
  | copy (source target : String)
  deriving DecidableEq, Repr

/-- **What strikes an operation**: a fault of the system, after some of the work is done.  That nothing is
there is said of trees only. -/
structure Mishap where
  fault : SystemFault
  progress : Nat := 0
  not_noEntry : fault ≠ .noEntry := by decide
  deriving DecidableEq, Repr

/-- **A disk**, with what will happen to it and what has happened. -/
structure Disk where
  /-- The tree that it holds. -/
  now : FileTree
  /-- The trees that it held, the youngest first. -/
  past : List FileTree := []
  /-- What strikes the next operations, one after the other, and nothing the operations behind them. -/
  mishaps : List (Option Mishap) := []
  /-- The operations that were struck, the last one first. -/
  struck : List Operation := []
  deriving DecidableEq, Inhabited

namespace Disk

/-- Every tree that a disk has held. -/
def frames (d : Disk) : List FileTree := d.now :: d.past

/-- **Carry out an operation**: the next mishap strikes it, or it does what it does to the tree. -/
def attempt {α : Type} (o : Operation) (whole : StateM FileTree α)
    (broken : Mishap → StateM FileTree α) : StateM Disk α := fun d =>
  match d.mishaps with
  | some m :: coming =>
    let (a, t) := broken m d.now
    (a, { now := t, past := d.frames, mishaps := coming, struck := o :: d.struck })
  | coming =>
    let (a, t) := whole d.now
    (a, { d with now := t, past := d.frames, mishaps := coming.tail })

/-- A file is moved at once or not at all, and so are permissions changed and files removed. -/
def attemptAtOnce (o : Operation) (whole : StateM FileTree (Except SystemFault Unit)) :
    StateM Disk (Except SystemFault Unit) :=
  attempt o whole fun m t => (.error m.fault, t)

/-- What cannot be looked at counts as not being there. -/
instance : FileSystem (StateM Disk) where
  read path := attempt (.read path) (FileSystem.read path) fun m t => (.error m.fault, t)
  exists? path := attempt (.exists? path) (FileSystem.exists? path) fun _ t => (false, t)
  createDirectories path :=
    attempt (.createDirectories path) (FileSystem.createDirectories path) fun m t =>
      (.error m.fault, t.createPart path m.progress)
  write path content :=
    attempt (.write path) (FileSystem.write path content) fun m t =>
      (.error m.fault, t.writePart path content m.progress)
  makePrivate path := attemptAtOnce (.makePrivate path) (FileSystem.makePrivate path)
  remove path := attemptAtOnce (.remove path) (FileSystem.remove path)
  rename source target := attemptAtOnce (.rename source target) (FileSystem.rename source target)
  copy source target :=
    attempt (.copy source target) (FileSystem.copy source target) fun m t =>
      (.error m.fault, t.copyPart source target m.progress)

end Disk

end Rollout
