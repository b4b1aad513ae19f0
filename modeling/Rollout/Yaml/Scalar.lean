import Rollout.Yaml.Cursor

/-!
# Yaml/Scalar — the text of a scalar

A plain or quoted scalar may run over several lines: a single line break inside it reads as a
space, and of several in a row all but the first are kept (`Gap.text`).  A block scalar keeps its
lines below an indentation; folded, it joins neighbouring lines that do not start with a blank.
Each reader yields the text and the place behind the scalar, or fails.
-/

namespace Rollout.Yaml

/-! ## Gaps between words -/

/-- What separates two words of a scalar: blanks, or line breaks with blanks around them. -/
structure Gap where
  blanks : List Char := []
  /-- Was a line ended? -/
  broken : Bool := false
  first : List Char := []
  more : List Char := []
  deriving Repr, Inhabited

/-- **How a gap reads.** -/
def Gap.text (g : Gap) : List Char :=
  if !g.broken then g.blanks
  else if g.first == ['\n'] then (if g.more.isEmpty then [' '] else g.more)
  else g.first ++ g.more

/-- Read a gap.  Behind a line break no tab may stand left of column `tabLimit`. -/
def readGap (tabLimit : Nat) : (fuel : Nat) → Gap → Cursor → Option (Gap × Cursor)
  | 0, g, c => some (g, c)
  | fuel + 1, g, c =>
    if c.atGap then
      if g.broken then
        if c.column < tabLimit && c.sees '\t' then none
        else readGap tabLimit fuel g (c.skip 1)
      else readGap tabLimit fuel { g with blanks := g.blanks ++ c.rest.take 1 } (c.skip 1)
    else if c.atBreak then
      let (read, c) := c.nextLine
      if g.broken then readGap tabLimit fuel { g with more := g.more ++ read } c
      else readGap tabLimit fuel { broken := true, first := read } c
    else some (g, c)

/-! ## Plain scalars -/

/-- The part of a plain scalar up to the next gap, and what follows it.  A colon ends the scalar
before a gap and is refused before a flow indicator inside a flow collection. -/
def plainRun (flow : Bool) : List Char → Option (List Char × List Char)
  | [] => some ([], [])
  | c :: rest =>
    if isGap c || isBreak c then some ([], c :: rest)
    else if flow && c == ':' && rest.head?.any (fun x => x == '?' || isFlowIndicator x) then none
    else if (c == ':' && endsWord rest) || (flow && isFlowIndicator c) then some ([], c :: rest)
    else (plainRun flow rest).map fun r => (c :: r.1, r.2)

/-- A scalar, the place behind it, and whether lines were ended behind its last word. -/
structure ScalarEnd where
  text : List Char
  behind : Cursor
  broken : Bool := false

/-- The words of a plain scalar, joined by the gaps between them. -/
def plainWords (flow : Bool) (indent : Nat) :
    (fuel : Nat) → (seen : List Char) → Gap → Cursor → Option ScalarEnd
  | 0, _, _, _ => none
  | fuel + 1, seen, gap, c =>
    if c.atMarker || c.sees '#' then some ⟨seen, c, gap.broken⟩
    else do
      let (run, rest) ← plainRun flow c.rest
      let c := c.moveTo rest
      let (seen, gap) := if run.isEmpty then (seen, gap) else (seen ++ gap.text ++ run, {})
      if c.atGap || c.atBreak then
        let (gap, c) ← readGap indent c.rest.length gap c
        if !flow && c.column < indent then some ⟨seen, c, gap.broken⟩
        else plainWords flow indent fuel seen gap c
      else some ⟨seen, c, gap.broken⟩

/-- **A plain scalar**; its lines stand at column `indent` or further right. -/
def readPlain (flow : Bool) (indent : Nat) (c : Cursor) : Option ScalarEnd :=
  plainWords flow indent (c.rest.length + 1) [] {} c

/-! ## Quoted scalars -/

/-- The part of a single-quoted scalar up to a gap or a quote that stands alone. -/
def singleRun : List Char → Option (List Char × List Char)
  | '\'' :: '\'' :: rest => (singleRun rest).map fun r => ('\'' :: r.1, r.2)
  | [] => some ([], [])
  | c :: rest =>
    if isGap c || isBreak c || c == '\'' then some ([], c :: rest)
    else (singleRun rest).map fun r => (c :: r.1, r.2)

/-- The character an escape of one letter stands for. -/
def escaped? : Char → Option Char
  | '0' => some (Char.ofNat 0x00)
  | 'a' => some (Char.ofNat 0x07)
  | 'b' => some (Char.ofNat 0x08)
  | 't' => some '\t'
  | '\t' => some '\t'
  | 'n' => some '\n'
  | 'v' => some (Char.ofNat 0x0B)
  | 'f' => some (Char.ofNat 0x0C)
  | 'r' => some '\r'
  | 'e' => some (Char.ofNat 0x1B)
  | ' ' => some ' '
  | '"' => some '"'
  | '/' => some '/'
  | '\\' => some '\\'
  | 'N' => some (Char.ofNat 0x85)
  | '_' => some (Char.ofNat 0xA0)
  | 'L' => some (Char.ofNat 0x2028)
  | 'P' => some (Char.ofNat 0x2029)
  | _ => none

/-- The character a hexadecimal number stands for; surrogates and numbers beyond the last
character stand for none. -/
def hexChar? (ds : List Char) : Option Char := do
  let n ← Text.ofDigits 16 ds
  if (0xD800 ≤ n && n ≤ 0xDFFF) || n > 0x10FFFF then none else some (Char.ofNat n)

/-- The part of a double-quoted scalar up to a gap, a quote, or a line break that is escaped. -/
def doubleRun : List Char → Option (List Char × List Char)
  | [] => some ([], [])
  | '\\' :: 'x' :: a :: b :: rest => do
    let x ← hexChar? [a, b]
    let r ← doubleRun rest
    some (x :: r.1, r.2)
  | '\\' :: 'u' :: a :: b :: c :: d :: rest => do
    let x ← hexChar? [a, b, c, d]
    let r ← doubleRun rest
    some (x :: r.1, r.2)
  | '\\' :: 'U' :: a :: b :: c :: d :: e :: f :: g :: h :: rest => do
    let x ← hexChar? [a, b, c, d, e, f, g, h]
    let r ← doubleRun rest
    some (x :: r.1, r.2)
  | '\\' :: x :: rest =>
    if isBreak x then some ([], '\\' :: x :: rest)
    else do
      let x ← escaped? x
      let r ← doubleRun rest
      some (x :: r.1, r.2)
  | c :: rest =>
    if isGap c || isBreak c || c == '"' then some ([], c :: rest)
    else if c == '\\' then none
    else (doubleRun rest).map fun r => (c :: r.1, r.2)

/-- The words of a quoted scalar up to its closing quote.  An escaped line break joins the lines
without a space. -/
def quotedWords (quote : Char) (run : List Char → Option (List Char × List Char)) :
    (fuel : Nat) → (seen : List Char) → Cursor → Option (List Char × Cursor)
  | 0, _, _ => none
  | fuel + 1, seen, c =>
    if c.atMarker || c.rest.isEmpty then none
    else do
      let (word, rest) ← run c.rest
      let c := c.moveTo rest
      let seen := seen ++ word
      if c.sees quote then some (seen, c.skip 1)
      else
        let (gap, c) : Gap × Cursor :=
          if c.sees '\\' then ({ broken := true }, (c.skip 1).nextLine.2) else ({}, c)
        let (gap, c) ← readGap 0 c.rest.length gap c
        quotedWords quote run fuel (seen ++ gap.text) c

/-- **A quoted scalar**, from its opening quote on. -/
def readQuoted (quote : Char) (c : Cursor) : Option (List Char × Cursor) :=
  quotedWords quote (if quote == '"' then doubleRun else singleRun) (c.rest.length + 1) []
    (c.skip 1)

/-! ## Block scalars -/

/-- What becomes of the line breaks at the end of a block scalar. -/
inductive Chomping where
  | strip
  | clip
  | keep
  deriving DecidableEq, Repr

/-- Read a chomping indicator; nothing is taken when there is none. -/
def readChomping (c : Cursor) : Option Chomping × Cursor :=
  if c.sees '+' then (some .keep, c.skip 1)
  else if c.sees '-' then (some .strip, c.skip 1)
  else (none, c)

/-- Read an indentation indicator, which must not be zero; nothing is taken when there is
none. -/
def readIndentation (c : Cursor) : Option (Option Nat × Cursor) :=
  match c.peek? with
  | some x =>
    if Text.isDigit x then
      if x == '0' then none else some (some (x.toNat - 48), c.skip 1)
    else some (none, c)
  | none => some (none, c)

/-- The two indicators of a block scalar, in either order. -/
def readIndicators (c : Cursor) : Option (Chomping × Option Nat × Cursor) := do
  match readChomping c with
  | (some chomping, c) =>
    let (indentation, c) ← readIndentation c
    some (chomping, indentation, c)
  | (none, c) =>
    let (indentation, c) ← readIndentation c
    let (chomping, c) := if indentation.isSome then readChomping c else (none, c)
    some (chomping.getD .clip, indentation, c)

/-- What stands before a line of a block scalar: line breaks, the widest indentation of the empty
lines, and the place behind. -/
structure Lead where
  breaks : List Char
  widest : Nat
  behind : Cursor

/-- Read empty lines and the indentation of the line behind them.  Without an indentation yet all
spaces belong to it; a tab may not stand in its place. -/
def readLead (indent : Option Nat) : (fuel : Nat) → List Char → Nat → Cursor → Option Lead
  | 0, _, _, _ => none
  | fuel + 1, breaks, widest, c =>
    let spaces := c.ahead (· == ' ')
    let wanted := match indent with
      | some n => min spaces.length (n - c.column)
      | none => spaces.length
    let c := c.skip wanted
    let widest := max widest c.column
    if (indent.all fun n => c.column < n) && c.sees '\t' then none
    else if c.atBreak then
      let (read, c) := c.nextLine
      readLead indent fuel (breaks ++ read) widest c
    else some ⟨breaks, widest, c⟩

/-- The lines of a block scalar.  `last` is the break that ended the line before, `breaks` those
of the empty lines behind it. -/
def blockLines (folded : Bool) (chomping : Chomping) (indent : Nat) :
    (fuel : Nat) → (seen last breaks : List Char) → (afterBlank : Bool) → Cursor →
    Option (List Char × Cursor)
  | 0, _, _, _, _, _ => none
  | fuel + 1, seen, last, breaks, afterBlank, c =>
    if c.column == indent && !c.rest.isEmpty then
      let joined :=
        if folded && last == ['\n'] && !afterBlank && !c.atGap then
          (if breaks.isEmpty then [' '] else [])
        else last
      let line := c.ahead fun x => !isBreak x
      let blank := c.atGap
      let (last, next) := (c.skip line.length).nextLine
      do
        let lead ← readLead (some indent) (next.rest.length + 1) [] 0 next
        blockLines folded chomping indent fuel (seen ++ joined ++ breaks ++ line) last lead.breaks
          blank lead.behind
    else
      let ending := match chomping with
        | .strip => []
        | .clip => last
        | .keep => last ++ breaks
      some (seen ++ ending, c)

/-- **A block scalar**, from its indicator on.  `floor` is the first column right of the block
around it. -/
def readBlock (folded : Bool) (floor : Nat) (c : Cursor) : Option (List Char × Cursor) := do
  let (chomping, indentation, c) ← readIndicators (c.skip 1)
  let c := (c.skipWhile isGap).skipComment
  if !(c.rest.isEmpty || c.atBreak) then none
  else
    let c := c.nextLine.2
    let indent := indentation.map fun n => (floor - 1) + n
    let lead ← readLead indent (c.rest.length + 1) [] 0 c
    let indent := indent.getD (max lead.widest (max floor 1))
    blockLines folded chomping indent (c.rest.length + 2) [] [] lead.breaks false lead.behind

end Rollout.Yaml
