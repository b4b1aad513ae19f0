import Rollout.Yaml.Name
import Rollout.Yaml.Scalar

/-!
# Yaml/Tokens — from text to tokens

`tokens?` cuts a whole text into tokens.  Outside flow collections a block is open for every
column in `Lexer.blocks`; a node further right opens one, a node further left closes those it
leaves.  Whether a node is a key shows only at the colon behind it: the place of the last node that
could be one is kept in `Lexer.pending`, and the tokens that open the key are put there
afterwards.
-/

namespace Rollout.Yaml

/-- **A node that becomes a key if a colon follows.** -/
structure PendingKey where
  /-- It opens a line of a block mapping, and so must be a key. -/
  required : Bool
  /-- The number of tokens before it. -/
  position : Nat
  start : Cursor
  deriving Repr

/-- A key stands on one line and is no longer than this. -/
def maxKeyLength : Nat := 1024

/-- Can the node still be a key of a colon at a place? -/
def PendingKey.reaches (k : PendingKey) (c : Cursor) : Bool :=
  k.start.line == c.line && c.index ≤ k.start.index + maxKeyLength

/-- **The state of cutting a text into tokens.** -/
structure Lexer where
  cursor : Cursor
  /-- The tokens so far, the last one first. -/
  found : List Token := []
  /-- The columns of the blocks that are open, the innermost first. -/
  blocks : List Nat := []
  /-- May a node here be a key? -/
  keyAllowed : Bool := true
  pending : Option PendingKey := none
  /-- The pending keys of the collections around the flow collections that are open. -/
  outer : List (Option PendingKey) := []
  deriving Inhabited

namespace Lexer

/-- Is a flow collection open? -/
def inFlow (l : Lexer) : Bool := !l.outer.isEmpty

/-- The first column right of the innermost block. -/
def floor (l : Lexer) : Nat :=
  match l.blocks with
  | [] => 0
  | column :: _ => column + 1

/-- Add a token. -/
def emit (t : Token) (l : Lexer) : Lexer := { l with found := t :: l.found }

/-- Add a token before those from a position on. -/
def emitAt (position : Nat) (t : Token) (l : Lexer) : Lexer :=
  let later := l.found.length - position
  { l with found := l.found.take later ++ t :: l.found.drop later }

/-- Move the cursor. -/
def goto (c : Cursor) (l : Lexer) : Lexer := { l with cursor := c }

/-- Close every block that starts right of a column. -/
def closeBlocks (column : Nat) (l : Lexer) : Lexer :=
  if l.inFlow then l
  else
    let left := l.blocks.dropWhile fun b => b > column
    { l with
      found := List.replicate (l.blocks.length - left.length) .blockEnd ++ l.found
      blocks := left }

/-- Close every block. -/
def closeAllBlocks (l : Lexer) : Lexer :=
  if l.inFlow then l
  else
    { l with
      found := List.replicate l.blocks.length .blockEnd ++ l.found
      blocks := [] }

/-- Open a block at a column, unless it stands inside the innermost one already. -/
def openBlock (column position : Nat) (t : Token) (l : Lexer) : Lexer :=
  if l.inFlow || column < l.floor then l
  else { l.emitAt position t with blocks := column :: l.blocks }

/-- Open a block here. -/
def openBlockHere (t : Token) (l : Lexer) : Lexer :=
  l.openBlock l.cursor.column l.found.length t

/-- Give up the pending key; one that must be a key cannot be given up. -/
def dropKey (l : Lexer) : Option Lexer :=
  match l.pending with
  | some k => if k.required then none else some { l with pending := none }
  | none => some l

/-- Take the node that starts here for a possible key. -/
def offerKey (l : Lexer) : Option Lexer :=
  if l.keyAllowed then do
    let l ← l.dropKey
    let required := !l.inFlow && l.floor == l.cursor.column + 1
    some { l with pending := some ⟨required, l.found.length, l.cursor⟩ }
  else some l

/-- Skip blanks, comments and line breaks up to the next token.  A line break of a block lets a
key follow. -/
def skipBetween : (fuel : Nat) → Lexer → Lexer
  | 0, l => l
  | fuel + 1, l =>
    let c := l.cursor
    let c := if c.column == 0 && c.sees (Char.ofNat 0xFEFF) then c.skip 1 else c
    let tabs := l.inFlow || !l.keyAllowed
    let c := (c.skipWhile fun x => x == ' ' || (tabs && x == '\t')).skipComment
    if c.atBreak then
      skipBetween fuel { l with cursor := c.nextLine.2, keyAllowed := l.keyAllowed || !l.inFlow }
    else l.goto c

/-! ## One token -/

/-- A token of `n` characters. -/
def take (n : Nat) (t : Token) (l : Lexer) : Lexer := (l.emit t).goto (l.cursor.skip n)

/-- A marker of a document's start or end. -/
def marker (t : Token) (l : Lexer) : Option Lexer := do
  let l ← l.closeAllBlocks.dropKey
  some ({ l with keyAllowed := false }.take 3 t)

/-- A directive. -/
def directive (l : Lexer) : Option Lexer := do
  let l ← l.closeAllBlocks.dropKey
  let (t, c) ← readDirective l.cursor
  some (({ l with keyAllowed := false }.emit t).goto c)

/-- The opening bracket of a flow collection, which may itself be a key. -/
def openFlow (t : Token) (l : Lexer) : Option Lexer := do
  let l ← l.offerKey
  some ({ l with pending := none, outer := l.pending :: l.outer, keyAllowed := true }.take 1 t)

/-- The closing bracket of a flow collection. -/
def closeFlow (t : Token) (l : Lexer) : Option Lexer := do
  let l ← l.dropKey
  let l := match l.outer with
    | k :: outer => { l with pending := k, outer }
    | [] => l
  some ({ l with keyAllowed := false }.take 1 t)

/-- The comma of a flow collection. -/
def flowComma (l : Lexer) : Option Lexer := do
  let l ← l.dropKey
  some ({ l with keyAllowed := true }.take 1 .flowEntry)

/-- A block indicator may stand here; outside flow collections it opens a block. -/
def openFor (t : Token) (l : Lexer) : Option Lexer :=
  if l.inFlow then some l
  else if l.keyAllowed then some (l.openBlockHere t)
  else none

/-- The dash of a block sequence. -/
def dash (l : Lexer) : Option Lexer := do
  let l ← (← l.openFor .blockSequenceStart).dropKey
  some ({ l with keyAllowed := true }.take 1 .blockEntry)

/-- The question mark of a key. -/
def questionMark (l : Lexer) : Option Lexer := do
  let l ← (← l.openFor .blockMappingStart).dropKey
  some ({ l with keyAllowed := !l.inFlow }.take 1 .key)

/-- **The colon of a value.**  It makes the pending node a key, if it still reaches it. -/
def colon (l : Lexer) : Option Lexer :=
  match l.pending with
  | some k =>
    if k.reaches l.cursor then
      let l := (l.emitAt k.position .key).openBlock k.start.column k.position .blockMappingStart
      some ({ l with pending := none, keyAllowed := false }.take 1 .value)
    else if k.required then none
    else bare { l with pending := none }
  | none => bare l
where
  /-- A colon without a key before it. -/
  bare (l : Lexer) : Option Lexer := do
    let l ← l.openFor .blockMappingStart
    some ({ l with keyAllowed := !l.inFlow }.take 1 .value)

/-- An anchor or an alias. -/
def name (make : String → Token) (l : Lexer) : Option Lexer := do
  let l ← l.offerKey
  let (s, c) ← readAnchor l.cursor
  some (({ l with keyAllowed := false }.emit (make s)).goto c)

/-- A tag. -/
def tag (l : Lexer) : Option Lexer := do
  let l ← l.offerKey
  let (handle, suffix, c) ← readTag l.inFlow l.cursor
  some (({ l with keyAllowed := false }.emit (.tag handle suffix)).goto c)

/-- A block scalar. -/
def blockScalar (style : ScalarStyle) (l : Lexer) : Option Lexer := do
  let l ← l.dropKey
  let (s, c) ← readBlock (style == .folded) l.floor l.cursor
  some (({ l with keyAllowed := true }.emit (.scalar style (String.ofList s))).goto c)

/-- A quoted scalar. -/
def quotedScalar (quote : Char) (style : ScalarStyle) (l : Lexer) : Option Lexer := do
  let l ← l.offerKey
  let (s, c) ← readQuoted quote l.cursor
  some (({ l with keyAllowed := false }.emit (.scalar style (String.ofList s))).goto c)

/-- A plain scalar; lines ended behind it let a key follow. -/
def plainScalar (l : Lexer) : Option Lexer := do
  let l ← l.offerKey
  let e ← readPlain l.inFlow l.floor l.cursor
  some (({ l with keyAllowed := e.broken }.emit (.scalar .plain (String.ofList e.text))).goto
    e.behind)

/-- Can a plain scalar start with these characters? -/
def startsPlain (inFlow : Bool) : List Char → Bool
  | [] => false
  | c :: rest =>
    if c == '-' then !rest.head?.any isGap
    else if c == '?' || c == ':' then !inFlow && !endsWord rest
    else
      !(isGap c || "#,[]\x7b\x7d&*!|>'\"%@\x60".toList.contains c)

/-- The token that starts with the next character, blanks skipped. -/
def nextToken (l : Lexer) (c : Char) (rest : List Char) : Option Lexer :=
  let column := l.cursor.column
  let indicates := l.inFlow || endsWord rest
  if column == 0 && c == '%' then l.directive
  else if l.cursor.atMarker then l.marker (if c == '-' then .documentStart else .documentEnd)
  else if c == '[' then l.openFlow .flowSequenceStart
  else if c == '{' then l.openFlow .flowMappingStart
  else if c == ']' then l.closeFlow .flowSequenceEnd
  else if c == '}' then l.closeFlow .flowMappingEnd
  else if c == ',' then l.flowComma
  else if c == '-' && endsWord rest then l.dash
  else if c == '?' && indicates then l.questionMark
  else if c == ':' && indicates then l.colon
  else if c == '*' then l.name .alias
  else if c == '&' then l.name .anchor
  else if c == '!' then l.tag
  else if c == '|' && !l.inFlow then l.blockScalar .literal
  else if c == '>' && !l.inFlow then l.blockScalar .folded
  else if c == '\'' then l.quotedScalar '\'' .singleQuoted
  else if c == '"' then l.quotedScalar '"' .doubleQuoted
  else if startsPlain l.inFlow (c :: rest) then l.plainScalar
  else none

/-- The end of the text closes all blocks. -/
def finish (l : Lexer) : Option (List Token) := do
  let l ← l.closeAllBlocks.dropKey
  some (l.emit .streamEnd).found.reverse

/-- Cut what is left into tokens. -/
def run : (fuel : Nat) → Lexer → Option (List Token)
  | 0, _ => none
  | fuel + 1, l =>
    let l := l.skipBetween (l.cursor.rest.length + 1)
    let l := l.closeBlocks l.cursor.column
    match l.cursor.rest with
    | [] => l.finish
    | c :: rest => (l.nextToken c rest).bind (run fuel)

end Lexer

/-- **The tokens of a text**, or `none` if it is no YAML. -/
def tokens? (text : String) : Option (List Token) :=
  let cs := text.toList
  if cs.all isAllowed then Lexer.run (cs.length + 2) { cursor := ⟨cs, 0, 0, 0⟩ } else none

end Rollout.Yaml
