import Rollout.System.Tree

/-!
# System/Listing — what lies below a directory, and what changed there

`FileTree.listing` lists everything below the home directory by its path from there;
`listingChanges` compares two listings.
-/

namespace Rollout

/-- What lies where, by path. -/
abbrev Listing := List (String × Entry)

/-- The path of a place below a directory; a directory ends in a slash. -/
def Entry.pathBelow (names : List String) (e : Entry) : String :=
  "/".intercalate names ++ if e.isDirectory then "/" else ""

/-- **Everything below the home directory.** -/
def FileTree.listing (t : FileTree) : Listing :=
  t.entries.filterMap fun (p, e) =>
    if FileTree.isBelow t.home p then some (e.pathBelow (p.drop t.home.length), e) else none

/-- Do two entries look the same, permissions aside? -/
def Entry.sameContent : Entry → Entry → Bool
  | .file a _, .file b _ => a == b
  | .directory, .directory => true
  | .link a, .link b => a == b
  | .socket _, .socket _ => true
  | _, _ => false

/-- **What changed between two listings.** -/
structure ListingChanges where
  /-- What is new or different. -/
  changed : Listing
  /-- The paths that are gone, in order. -/
  removed : List String

/-- The difference of two listings. -/
def listingChanges (before after : Listing) : ListingChanges where
  changed := after.filter fun (path, e) =>
    !((before.lookup path).any fun old => old.sameContent e)
  removed :=
    ((before.filter fun (path, _) => (after.lookup path).isNone).map Prod.fst).mergeSort
      fun a b => !(b < a)

/-- Did nothing change? -/
def ListingChanges.isEmpty (c : ListingChanges) : Bool := c.changed.isEmpty && c.removed.isEmpty

end Rollout
