import Rollout.Yaml.Token

/-!
# Yaml/Node — the tree a YAML text spells

`Node` is a tree of scalars, sequences and mappings whose nodes may carry a name (an anchor) and
may stand for a named node (an alias).  `Node.ofTokens?` reads the one document a sequence of
tokens holds; where a value is left out, a plain scalar without text stands.
-/

namespace Rollout.Yaml

/-- **A tree with names of type `ρ`.** -/
inductive Node (ρ : Type) where
  | scalar (anchor : Option ρ) (tag : Option String) (style : ScalarStyle) (text : String)
  | sequence (anchor : Option ρ) (tag : Option String) (items : List (Node ρ))
  | mapping (anchor : Option ρ) (tag : Option String) (fields : List (Node ρ × Node ρ))
  | alias (name : ρ)
  deriving Inhabited, Repr

/-- What may stand before a node: a name and a tag. -/
structure Properties where
  anchor : Option String := none
  tag : Option String := none
  deriving DecidableEq, Repr, Inhabited

namespace Node

/-- A scalar without text, which stands where a value is left out. -/
def blank (p : Properties) : Node String := .scalar p.anchor p.tag .plain ""

/-- A tag handle and what it stands for. -/
abbrev Handles := List (String × String)

/-- The handles of every document. -/
def standardHandles : Handles := [("!", "!"), ("!!", "tag:yaml.org,2002:")]

/-- The tag that handle and suffix spell; the handle must be declared. -/
def resolveTag (handles : Handles) (handle suffix : String) : Option String :=
  if handle.isEmpty then some suffix else (handles.lookup handle).map (· ++ suffix)

/-- Name and tag of a node, in either order. -/
def readProperties (handles : Handles) : List Token → Option (Properties × List Token)
  | .anchor a :: .tag h s :: rest =>
    (resolveTag handles h s).map fun t => (⟨some a, some t⟩, rest)
  | .tag h s :: .anchor a :: rest =>
    (resolveTag handles h s).map fun t => (⟨some a, some t⟩, rest)
  | .anchor a :: rest => some (⟨some a, none⟩, rest)
  | .tag h s :: rest => (resolveTag handles h s).map fun t => (⟨none, some t⟩, rest)
  | rest => some ({}, rest)

/-- The tag `!` leaves a scalar without a tag. -/
def scalarTag (tag : Option String) : Option String := tag.filter fun t => t != "!"

/-- Is the next token one of those? -/
def nextIs (ends : List Token) : List Token → Bool
  | t :: _ => ends.contains t
  | [] => false

/-- Are there neither name nor tag? -/
def Properties.isBare (p : Properties) : Bool := p.anchor.isNone && p.tag.isNone

mutual

/-- **A node and the tokens behind it.**  `block` lets it be a block collection, `indentless` a
sequence whose dashes stand at the column of the mapping around it. -/
def read (handles : Handles) :
    (fuel : Nat) → (block indentless : Bool) → List Token → Option (Node String × List Token)
  | 0, _, _, _ => none
  | _ + 1, _, _, .alias name :: rest => some (.alias name, rest)
  | fuel + 1, block, indentless, ts =>
    match readProperties handles ts with
    | none => none
    | some (p, ts) =>
      match ts with
      | .scalar style text :: rest => some (.scalar p.anchor (scalarTag p.tag) style text, rest)
      | .flowSequenceStart :: rest =>
        (readFlowItems handles fuel true rest).map fun r => (.sequence p.anchor p.tag r.1, r.2)
      | .flowMappingStart :: rest =>
        (readFlowFields handles fuel true rest).map fun r => (.mapping p.anchor p.tag r.1, r.2)
      | .blockEntry :: rest =>
        if indentless then
          (readItems handles fuel true (.blockEntry :: rest)).map fun r =>
            (.sequence p.anchor p.tag r.1, r.2)
        else if Properties.isBare p then none
        else some (blank p, .blockEntry :: rest)
      | .blockSequenceStart :: rest =>
        if block then
          (readItems handles fuel false rest).map fun r => (.sequence p.anchor p.tag r.1, r.2)
        else if Properties.isBare p then none
        else some (blank p, .blockSequenceStart :: rest)
      | .blockMappingStart :: rest =>
        if block then
          (readFields handles fuel rest).map fun r => (.mapping p.anchor p.tag r.1, r.2)
        else if Properties.isBare p then none
        else some (blank p, .blockMappingStart :: rest)
      | rest => if Properties.isBare p then none else some (blank p, rest)

/-- A node, or a blank one before a token that ends its place. -/
def readOr (handles : Handles) (ends : List Token) :
    (fuel : Nat) → (block indentless : Bool) → List Token → Option (Node String × List Token)
  | 0, _, _, _ => none
  | fuel + 1, block, indentless, ts =>
    if nextIs ends ts then some (blank {}, ts) else read handles fuel block indentless ts

/-- A value behind its colon; without a colon it is blank. -/
def readValue (handles : Handles) (ends : List Token) :
    (fuel : Nat) → (block : Bool) → List Token → Option (Node String × List Token)
  | 0, _, _ => none
  | fuel + 1, block, .value :: rest => readOr handles ends fuel block block rest
  | _ + 1, _, ts => some (blank {}, ts)

/-- The items of a block sequence. -/
def readItems (handles : Handles) :
    (fuel : Nat) → (indentless : Bool) → List Token → Option (List (Node String) × List Token)
  | 0, _, _ => none
  | fuel + 1, indentless, .blockEntry :: rest => do
    let ends := .blockEntry :: .blockEnd :: if indentless then [.key, .value] else []
    let (item, rest) ← readOr handles ends fuel true false rest
    let (items, rest) ← readItems handles fuel indentless rest
    some (item :: items, rest)
  | _ + 1, true, rest => some ([], rest)
  | _ + 1, false, .blockEnd :: rest => some ([], rest)
  | _, _, _ => none

/-- The fields of a block mapping. -/
def readFields (handles : Handles) :
    (fuel : Nat) → List Token → Option (List (Node String × Node String) × List Token)
  | 0, _ => none
  | fuel + 1, .key :: rest => do
    let ends := [.key, .value, .blockEnd]
    let (key, rest) ← readOr handles ends fuel true true rest
    let (value, rest) ← readValue handles ends fuel true rest
    let (fields, rest) ← readFields handles fuel rest
    some ((key, value) :: fields, rest)
  | _ + 1, .blockEnd :: rest => some ([], rest)
  | _, _ => none

/-- The items of a flow sequence, each behind a comma except the first.  A key makes an item a
mapping of one field; where such a key is left out, the token in its place is lost. -/
def readFlowItems (handles : Handles) :
    (fuel : Nat) → (first : Bool) → List Token → Option (List (Node String) × List Token)
  | 0, _, _ => none
  | _ + 1, _, .flowSequenceEnd :: rest => some ([], rest)
  | fuel + 1, false, .flowEntry :: rest => readFlowItem handles fuel rest
  | fuel + 1, true, ts => readFlowItem handles fuel ts
  | _, _, _ => none

/-- An item of a flow sequence and those behind it. -/
def readFlowItem (handles : Handles) :
    (fuel : Nat) → List Token → Option (List (Node String) × List Token)
  | 0, _ => none
  | _ + 1, .flowSequenceEnd :: rest => some ([], rest)
  | fuel + 1, .key :: rest => do
    let ends := [.flowEntry, .flowSequenceEnd]
    let (key, rest) ←
      if nextIs (.value :: ends) rest then some (blank {}, rest.drop 1)
      else read handles fuel false false rest
    let (value, rest) ← readValue handles ends fuel false rest
    let (items, rest) ← readFlowItems handles fuel false rest
    some (.mapping none none [(key, value)] :: items, rest)
  | fuel + 1, ts => do
    let (item, rest) ← read handles fuel false false ts
    let (items, rest) ← readFlowItems handles fuel false rest
    some (item :: items, rest)

/-- The fields of a flow mapping, each behind a comma except the first. -/
def readFlowFields (handles : Handles) :
    (fuel : Nat) → (first : Bool) → List Token → Option (List (Node String × Node String) × List Token)
  | 0, _, _ => none
  | _ + 1, _, .flowMappingEnd :: rest => some ([], rest)
  | fuel + 1, false, .flowEntry :: rest => readFlowField handles fuel rest
  | fuel + 1, true, ts => readFlowField handles fuel ts
  | _, _, _ => none

/-- A field of a flow mapping and those behind it.  A node without a key token is a key without a
value. -/
def readFlowField (handles : Handles) :
    (fuel : Nat) → List Token → Option (List (Node String × Node String) × List Token)
  | 0, _ => none
  | _ + 1, .flowMappingEnd :: rest => some ([], rest)
  | fuel + 1, .key :: rest => do
    let ends := [.flowEntry, .flowMappingEnd]
    let (key, rest) ← readOr handles (.value :: ends) fuel false false rest
    let (value, rest) ← readValue handles ends fuel false rest
    let (fields, rest) ← readFlowFields handles fuel false rest
    some ((key, value) :: fields, rest)
  | fuel + 1, ts => do
    let (key, rest) ← read handles fuel false false ts
    let (fields, rest) ← readFlowFields handles fuel false rest
    some ((key, blank {}) :: fields, rest)

end

/-- What the directives before a document declare. -/
structure Directives where
  versioned : Bool := false
  handles : Handles := []

/-- Read directives; none may be repeated, and the version must be 1.1 or 1.2. -/
def readDirectives (d : Directives) : List Token → Option (Directives × List Token)
  | .versionDirective major minor :: rest =>
    if d.versioned || major != 1 || !(minor == 1 || minor == 2) then none
    else readDirectives { d with versioned := true } rest
  | .tagDirective handle stem :: rest =>
    if (d.handles.lookup handle).isSome then none
    else readDirectives { d with handles := d.handles ++ [(handle, stem)] } rest
  | rest => some (d, rest)

/-- Does a directive or a marker of a document stand here? -/
def startsDocument : List Token → Bool
  | .versionDirective .. :: _ | .tagDirective .. :: _ | .documentStart :: _ => true
  | _ => false

/-- Does the content of a document end before it starts? -/
def isContentEmpty (ts : List Token) : Bool :=
  startsDocument ts || nextIs [.documentEnd, .streamEnd] ts

/-- **The one document that tokens hold.**  Without any token it is blank. -/
def ofTokens? (ts : List Token) : Option (Node String) := do
  let fuel := 4 * ts.length + 8
  if nextIs [.streamEnd] ts then some (blank {})
  else
    let (root, rest) ←
      if startsDocument ts then do
        let (d, rest) ← readDirectives {} ts
        match rest with
        | .documentStart :: rest =>
          if isContentEmpty rest then some (blank {}, rest)
          else read (d.handles ++ standardHandles) fuel true false rest
        | _ => none
      else read standardHandles fuel true false ts
    if rest.dropWhile (· == .documentEnd) == [.streamEnd] then some root else none

end Node

end Rollout.Yaml
