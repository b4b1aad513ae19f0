import Rollout.System.Files
import Rollout.System.Path

/-!
# System/Tree — a file system as a value

A `FileTree` maps places to files, directories, symbolic links and sockets.  `FileTree.walk`
resolves a path: it follows links within a budget, steps up at `..`, and refuses what a kernel
refuses.  The operations of `FileSystem` are functions on trees, and any state that holds a tree
offers them (`HasFileTree`).  They are refused for what lies where, and for nothing else; a `Disk`
may also be full, or deny the access.
-/

namespace Rollout

/-- Where something lies: the names from the root down. -/
abbrev Place := List String

/-- Contents are compared octet by octet, by the one instance wherever this is imported. -/
instance (priority := high) instDecidableEqContent : DecidableEq ByteArray :=
  ByteArray.instDecidableEq

/-- What can lie at a place. -/
inductive Entry where
  | file (content : ByteArray) (isPrivate : Bool)
  | directory
  | link (target : String)
  | socket (isPrivate : Bool)
  deriving DecidableEq, Inhabited

/-- Is the entry a directory? -/
def Entry.isDirectory : Entry → Bool
  | .directory => true
  | _ => false

/-- **A file system**: what lies where, and where relative paths start. -/
structure FileTree where
  entries : List (Place × Entry) := [([], .directory)]
  home : Place := []
  deriving DecidableEq, Inhabited

namespace FileTree

/-- What lies at a place.  The root is always a directory. -/
def lookup (t : FileTree) (p : Place) : Option Entry :=
  if p.isEmpty then some .directory else t.entries.lookup p

/-- Put an entry at a place, replacing what was there. -/
def insert (t : FileTree) (p : Place) (e : Entry) : FileTree :=
  { t with entries := (p, e) :: t.entries.filter fun q => q.1 != p }

/-- Take away what lies at a place. -/
def erase (t : FileTree) (p : Place) : FileTree :=
  { t with entries := t.entries.filter fun q => q.1 != p }

/-- Does a place lie strictly below another one? -/
def isBelow (p q : Place) : Bool := p.isPrefixOf q && p != q

/-- Does anything lie below a place? -/
def hasChildren (t : FileTree) (p : Place) : Bool := t.entries.any fun q => isBelow p q.1

/-- Take away a place with everything below it. -/
def eraseTree (t : FileTree) (p : Place) : FileTree :=
  { t with entries := t.entries.filter fun q => !p.isPrefixOf q.1 }

/-- Where something lies after what lies at `p` was moved to `q`. -/
def carry (p q r : Place) : Place := if p.isPrefixOf r then q ++ r.drop p.length else r

/-- Move a place with everything below it; what lay at the new place goes.  Relative paths keep
starting in the directory that they start in. -/
def move (t : FileTree) (p q : Place) : FileTree :=
  { entries := (t.entries.filter fun r => r.1 != q).map fun r => (carry p q r.1, r.2)
    home := carry p q t.home }

/-! ## Resolving paths -/

/-- How far a path leads. -/
inductive Walk where
  /-- To something that is there. -/
  | found (place : Place) (entry : Entry)
  /-- To a free place in a directory that is there. -/
  | free (place : Place)
  deriving DecidableEq, Inhabited

/-- A name may have this many bytes. -/
def maxNameBytes : Nat := 255

/-- A path must have fewer bytes than this. -/
def maxPathBytes : Nat := 4096

/-- A walk follows this many links. -/
def maxLinks : Nat := 40

/-- **Walk from a directory along the given names.**  A link is followed unless it is the last
name and `followLast` is off; `follow` continues from the directory of the link along the names
behind it. -/
def walkNames (t : FileTree) (followLast : Bool)
    (follow : Place → List String → Except SystemFault Walk) (here : Place) :
    List String → Except SystemFault Walk
  | [] =>
    match t.lookup here with
    | some e => .ok (.found here e)
    | none => .error .noEntry
  | name :: rest =>
    match t.lookup here with
    | some .directory =>
      if name.utf8ByteSize > maxNameBytes then .error .nameTooLong
      else if name = ".." then walkNames t followLast follow here.dropLast rest
      else
        let place := here ++ [name]
        match t.lookup place with
        | some (.link target) =>
          if rest.isEmpty && !followLast then .ok (.found place (.link target))
          else follow (if Path.isAbsolute target then [] else here) (Path.steps target ++ rest)
        | some _ => walkNames t followLast follow place rest
        | none => if rest.isEmpty then .ok (.free place) else .error .noEntry
    | some _ => .error .notDirectory
    | none => .error .noEntry

/-- Walk from a directory along the given names, through no more than `links` links. -/
def walkFrom (t : FileTree) (followLast : Bool) : (links : Nat) → Place → List String →
    Except SystemFault Walk
  | 0 => t.walkNames followLast fun _ _ => .error .tooManyLinks
  | links + 1 => t.walkNames followLast (t.walkFrom followLast links)

/-- **Resolve a path.**  The last name is followed if it is a link, unless `followLast` is off
and no slash follows it; with a slash behind it, it must not be a file. -/
def walk (t : FileTree) (followLast : Bool) (path : String) : Except SystemFault Walk :=
  if path.toList.contains (Char.ofNat 0) then .error .nulInPath
  else if path.isEmpty then .error .noEntry
  else if path.utf8ByteSize ≥ maxPathBytes then .error .nameTooLong
  else
    let slash := Path.endsInSlash path
    let start := if Path.isAbsolute path then [] else t.home
    match t.walkFrom (followLast || slash) maxLinks start (Path.steps path) with
    | .ok (.found p e) =>
      if slash && !e.isDirectory then .error .notDirectory else .ok (.found p e)
    | r => r

/-- Does a path end in a name, rather than in a point or two? -/
def endsInName (path : String) : Bool :=
  match (Path.pieces path.toList).filter (fun p => !p.isEmpty) |>.getLast? with
  | some p => p != ['.'] && p != ['.', '.']
  | none => false

/-! ## The operations -/

/-- The content of a file. -/
def read (t : FileTree) (path : String) : Except SystemFault ByteArray :=
  match t.walk true path with
  | .error e => .error e
  | .ok (.free _) => .error .noEntry
  | .ok (.found _ (.file content _)) => .ok content
  | .ok (.found _ .directory) => .error .isDirectory
  | .ok (.found _ (.socket _)) => .error .noDevice
  | .ok (.found _ (.link _)) => .error .tooManyLinks

/-- What lies at a path, links followed. -/
def status (t : FileTree) (path : String) : Except SystemFault Entry :=
  match t.walk true path with
  | .error e => .error e
  | .ok (.free _) => .error .noEntry
  | .ok (.found _ e) => .ok e

/-- Is there anything at a path? -/
def exists? (t : FileTree) (path : String) : Bool := (t.status path).isOk

/-- Is there a directory at a path? -/
def isDirectory (t : FileTree) (path : String) : Bool :=
  match t.status path with
  | .ok e => e.isDirectory
  | .error _ => false

/-- Make one directory. -/
def createDirectory (t : FileTree) (path : String) : Except SystemFault FileTree :=
  let trimmed := if Path.endsInSlash path then (Path.parent? (path ++ "x")).getD path else path
  match t.walk false trimmed with
  | .error e => .error e
  | .ok (.free p) => .ok (t.insert p .directory)
  | .ok (.found _ _) => .error .exists

/-- The paths of the directories above a path and the path itself, innermost first. -/
def ancestors (path : String) : (fuel : Nat) → List String
  | 0 => [path]
  | fuel + 1 =>
    match Path.parent? path with
    | some p => path :: ancestors p fuel
    | none => [path]

/-- Make one directory; one that is there is fine. -/
def ensureDirectory (t : FileTree) (path : String) : Except SystemFault FileTree :=
  match t.createDirectory path with
  | .ok t => .ok t
  | .error e => if t.isDirectory path then .ok t else .error e

/-- Make the directories of a list, innermost first, where one that is missing has its outer ones
made before. -/
def createAll (t : FileTree) : List String → Except SystemFault FileTree
  | [] => .ok t
  | path :: outer =>
    if path.isEmpty || (Path.parent? path).isNone then .ok t
    else
      match t.createDirectory path with
      | .error .noEntry => (createAll t outer).bind fun t => t.ensureDirectory path
      | _ => t.ensureDirectory path

/-- Make a directory and those above it that are missing. -/
def createDirectories (t : FileTree) (path : String) : Except SystemFault FileTree :=
  t.createAll (ancestors path path.length)

/-- **What is there after making the directories of a list failed**: the outer ones, as far as they
could be made. -/
def leftover (t : FileTree) : List String → FileTree
  | [] => t
  | path :: outer =>
    match t.createDirectory path with
    | .error .noEntry => (t.createAll outer).toOption.getD (t.leftover outer)
    | _ => t

/-- Make a file hold exactly this content.  A file that is there keeps its permissions. -/
def write (t : FileTree) (path : String) (content : ByteArray) : Except SystemFault FileTree :=
  match t.walk true path with
  | .error e => .error e
  | .ok (.free p) =>
    if Path.endsInSlash path then .error .isDirectory
    else .ok (t.insert p (.file content false))
  | .ok (.found p (.file _ isPrivate)) => .ok (t.insert p (.file content isPrivate))
  | .ok (.found _ .directory) => .error .isDirectory
  | .ok (.found _ (.socket _)) => .error .noDevice
  | .ok (.found _ (.link _)) => .error .tooManyLinks

/-- Let only the owner read and write. -/
def makePrivate (t : FileTree) (path : String) : Except SystemFault FileTree :=
  match t.walk true path with
  | .error e => .error e
  | .ok (.free _) => .error .noEntry
  | .ok (.found p (.file content _)) => .ok (t.insert p (.file content true))
  | .ok (.found p (.socket _)) => .ok (t.insert p (.socket true))
  | .ok (.found _ _) => .ok t

/-- Remove a file, socket or link. -/
def remove (t : FileTree) (path : String) : Except SystemFault FileTree :=
  match t.walk false path with
  | .error e => .error e
  | .ok (.free _) => .error .noEntry
  | .ok (.found _ .directory) => .error .isDirectory
  | .ok (.found p _) => .ok (t.erase p)

/-- **Move what lies at a path onto another path.**  A directory replaces only an empty directory,
anything else only what is no directory. -/
def rename (t : FileTree) (source target : String) : Except SystemFault FileTree := do
  let s ← t.walk false source
  let d ← t.walk false target
  if !endsInName source || !endsInName target then .error .busy
  else
    match s with
    | .free _ => .error .noEntry
    | .found p e =>
      if !e.isDirectory && Path.endsInSlash target then .error .notDirectory
      else
        match d with
        | .free q => if isBelow p q then .error .invalid else .ok (t.move p q)
        | .found q f =>
          if p = q then .ok t
          else if isBelow p q then .error .invalid
          else if isBelow q p then .error .notEmpty
          else if e.isDirectory then
            if !f.isDirectory then .error .notDirectory
            else if t.hasChildren q then .error .notEmpty
            else .ok (t.move p q)
          else if f.isDirectory then .error .isDirectory
          else .ok (t.move p q)

/-- Copy the permissions of a regular file, and what is cut out of its content. -/
def copyCut (cut : ByteArray → ByteArray) (t : FileTree) (source target : String) :
    Except SystemFault FileTree :=
  match t.status source with
  | .error e => .error e
  | .ok (.file content isPrivate) =>
    match t.write target (cut content) with
    | .error e => .error e
    | .ok t => if isPrivate then t.makePrivate target else .ok t
  | .ok (.socket _) => .error .noDevice
  | .ok _ => .error .notRegular

/-- Copy the content and the permissions of a regular file. -/
def copy (t : FileTree) (source target : String) : Except SystemFault FileTree :=
  t.copyCut id source target

end FileTree

namespace FileTree

/-! ## Arranging a tree -/

/-- The place a path leads to, whether or not something lies there. -/
def placeOf? (t : FileTree) (path : String) : Option Place :=
  match t.walk true path with
  | .ok (.found p _) => some p
  | .ok (.free p) => some p
  | .error _ => none

/-- Make the directories above a path, as far as possible. -/
def withParents (t : FileTree) (path : String) : FileTree :=
  match (Path.parent? path).filter fun p => !p.isEmpty with
  | some parent => (t.createDirectories parent).toOption.getD t
  | none => t

/-- **Put an entry at a path**, with the directories above it.  It replaces a file or a link, but
no directory. -/
def place (t : FileTree) (path : String) (e : Entry) : FileTree :=
  let t := t.withParents path
  match t.walk false path with
  | .ok (.free p) => t.insert p e
  | .ok (.found p old) => if old.isDirectory then t else t.insert p e
  | .error _ => t

/-- Put a directory at a path, with those above it. -/
def placeDirectory (t : FileTree) (path : String) : FileTree :=
  (t.createDirectories path).toOption.getD t

/-- Write a file at a path, through links, with the directories above it. -/
def placeFile (t : FileTree) (path : String) (content : ByteArray) : FileTree :=
  let t := t.withParents path
  (t.write path content).toOption.getD t

/-- Take away what lies at a path, with everything below it. -/
def removeTree (t : FileTree) (path : String) : FileTree :=
  match t.walk false path with
  | .ok (.found p _) => t.eraseTree p
  | _ => t

/-- Is what lies at a path open to its owner only? -/
def isPrivate (t : FileTree) (path : String) : Bool :=
  match t.status path with
  | .ok (.file _ p) => p
  | .ok (.socket p) => p
  | _ => false

end FileTree

/-- A state that holds a file tree. -/
class HasFileTree (σ : Type) where
  tree : σ → FileTree
  setTree : FileTree → σ → σ

instance : HasFileTree FileTree := ⟨id, fun t _ => t⟩

/-- Run an operation on the tree of a state; a failed one leaves it alone. -/
def onTree {σ : Type} [HasFileTree σ] (op : FileTree → Except SystemFault FileTree) :
    StateM σ (Except SystemFault Unit) := fun s =>
  match op (HasFileTree.tree s) with
  | .ok t => (.ok (), HasFileTree.setTree t s)
  | .error e => (.error e, s)

instance {σ : Type} [HasFileTree σ] : FileSystem (StateM σ) where
  read path := fun s => ((HasFileTree.tree s).read path, s)
  exists? path := fun s => ((HasFileTree.tree s).exists? path, s)
  createDirectories path := fun s =>
    let t := HasFileTree.tree s
    match t.createDirectories path with
    | .ok t => (.ok (), HasFileTree.setTree t s)
    | .error e =>
      (.error e, HasFileTree.setTree (t.leftover (FileTree.ancestors path path.length)) s)
  write path content := onTree (·.write path content)
  makePrivate path := onTree (·.makePrivate path)
  remove path := onTree (·.remove path)
  rename source target := onTree (·.rename source target)
  copy source target := onTree (·.copy source target)

end Rollout
