import Rollout.Yaml.Token

/-!
# Yaml/Cursor — a place in a YAML text

A `Cursor` holds what is left of a text and the position reached.  Every line break counts as one
and reads as a line feed, except for the two Unicode separators, which stay what they are.
-/

namespace Rollout.Yaml

/-- **A place in a text.**  Line and column count from zero. -/
structure Cursor where
  rest : List Char
  index : Nat := 0
  line : Nat := 0
  column : Nat := 0
  deriving Repr, Inhabited

/-- Take a line break off the front: how it reads and what follows. -/
def takeBreak? : List Char → Option (List Char × List Char)
  | '\r' :: '\n' :: rest => some (['\n'], rest)
  | c :: rest =>
    if isBreak c then
      some ([if c.toNat == 0x2028 || c.toNat == 0x2029 then c else '\n'], rest)
    else none
  | [] => none

namespace Cursor

/-- Move on along the line to `rest`, which is an end of what is left. -/
def moveTo (c : Cursor) (rest : List Char) : Cursor :=
  let n := c.rest.length - rest.length
  { c with rest, index := c.index + n, column := c.column + n }

/-- Move on by some characters of the line. -/
def skip (c : Cursor) (n : Nat) : Cursor := c.moveTo (c.rest.drop n)

/-- Move on along the line while characters satisfy `p`. -/
def skipWhile (c : Cursor) (p : Char → Bool) : Cursor := c.moveTo (c.rest.dropWhile p)

/-- The characters ahead that satisfy `p`. -/
def ahead (c : Cursor) (p : Char → Bool) : List Char := c.rest.takeWhile p

/-- The next character. -/
def peek? (c : Cursor) : Option Char := c.rest.head?

/-- Is this the next character? -/
def sees (c : Cursor) (x : Char) : Bool := c.rest.head? == some x

/-- Does a line break come next? -/
def atBreak (c : Cursor) : Bool := c.rest.head?.any isBreak

/-- Does a blank come next? -/
def atGap (c : Cursor) : Bool := c.rest.head?.any isGap

/-- Does the text end here, or a word of it? -/
def atWordEnd (c : Cursor) : Bool := endsWord c.rest

/-- Does a marker of a document's start or end stand here? -/
def atMarker (c : Cursor) : Bool := c.column == 0 && startsMarker c.rest

/-- Move past a line break, if there is one: how it reads, and the place behind it. -/
def nextLine (c : Cursor) : List Char × Cursor :=
  match takeBreak? c.rest with
  | some (read, rest) =>
    (read, { rest, index := c.index + (c.rest.length - rest.length), line := c.line + 1 })
  | none => ([], c)

/-- Move past a comment, up to the end of its line. -/
def skipComment (c : Cursor) : Cursor :=
  if c.sees '#' then c.skipWhile fun x => !isBreak x else c

end Cursor

end Rollout.Yaml
