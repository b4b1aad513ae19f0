import Rollout.Text.Decimal
import Rollout.Text.Lines

/-!
# System/Path — paths as texts

A path is a text; nothing here asks the file system.  `join` hangs a path below another one,
`parent?` and `fileName?` take it apart.  Repeated slashes, points between slashes and a slash at
the end do not count as components.
-/

namespace Rollout.Path

/-- Split at every slash; one piece more than there are slashes. -/
def pieces (cs : List Char) : List (List Char) := Text.splitAt '/' cs

/-- Does the path start at the root? -/
def isAbsolute (path : String) : Bool := path.toList.head? == some '/'

/-- Does the path end in a slash? -/
def endsInSlash (path : String) : Bool := path.toList.getLast? == some '/'

/-- The names a path walks through, in order.  An empty name and a point walk nowhere. -/
def steps (path : String) : List String :=
  ((pieces path.toList).filter fun p => !(p.isEmpty || p == ['.'])).map String.ofList

/-- **The path `path` seen from `base`**: an absolute one is kept, any other one follows a
slash. -/
def join (base path : String) : String :=
  if isAbsolute path then path
  else if base.isEmpty || endsInSlash base then base ++ path
  else base ++ "/" ++ path

/-- The number of characters at the front that are no component: the slash of the root, or a
point that stands alone before the first slash. -/
def bodyStart : List Char → Nat
  | '/' :: _ => 1
  | ['.'] => 1
  | '.' :: '/' :: _ => 1
  | _ => 0

/-- Drop, from a reversed path, slashes and points that are no component, down to `keep`
characters. -/
def trimReversed (keep : Nat) : List Char → List Char
  | [] => []
  | '/' :: cs => if cs.length < keep then '/' :: cs else trimReversed keep cs
  | '.' :: cs =>
    if cs.length < keep then '.' :: cs
    else
      match cs with
      | [] => []
      | '/' :: _ => trimReversed keep cs
      | _ => '.' :: cs
  | cs => cs

/-- The path without its last component, reversed; `none` if it has no component. -/
def parentReversed (keep : Nat) (reversed : List Char) : Option (List Char) :=
  let body := trimReversed keep reversed
  if body.length ≤ keep then
    if keep = 0 ∨ body = ['/'] then none else some []
  else
    let name := (body.take (body.length - keep)).takeWhile (· != '/')
    some (trimReversed keep (body.drop name.length))

/-- **The path of the directory that holds a path's last component**; `none` for the root and for
the empty path.  A single name lies in the empty path. -/
def parent? (path : String) : Option String :=
  let cs := path.toList
  (parentReversed (bodyStart cs) cs.reverse).map fun p => String.ofList p.reverse

/-- **The last component of a path, if it is a name.** -/
def fileName? (path : String) : Option String :=
  match (steps path).getLast? with
  | some ".." => none
  | name => name

/-- The path with its last component replaced by a name, or with the name below it if there is
none to replace. -/
def withFileName (path name : String) : String :=
  match fileName? path with
  | some _ => join ((parent? path).getD "") name
  | none => join path name

/-- The path followed by a point and a number. -/
def numbered (path : String) (n : Nat) : String := path ++ "." ++ Text.decimal n

end Rollout.Path
