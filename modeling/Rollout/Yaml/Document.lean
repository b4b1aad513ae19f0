import Rollout.Value.Source
import Rollout.Yaml.Resolve
import Rollout.Yaml.Tokens

/-!
# Yaml/Document — a YAML document as a source of data

Names of nodes become numbers: a name gets as its number how many other names were in use when its
node started, and a number stands for the last node that got it.  `Document.source` reads typed
data out of the nodes and follows aliases, no more than a hundred times as many as the document has
parts.
-/

namespace Rollout.Yaml

namespace Node

/-- The numbers that names have so far. -/
abbrev Numbering := List (String × Nat)

/-- Give a name a number. -/
def numberName (name : String) (ns : Numbering) : Nat × Numbering :=
  (ns.length, (name, ns.length) :: ns.filter fun n => n.1 != name)

/-- Give the name of a node a number, if it has a name. -/
def numberAnchor (anchor : Option String) (ns : Numbering) : Option Nat × Numbering :=
  match anchor with
  | some name =>
    let (n, ns) := numberName name ns
    (some n, ns)
  | none => (none, ns)

mutual

/-- **Replace names by numbers**; `none` at an alias without a node before it. -/
def numbered : Node String → Numbering → Option (Node Nat × Numbering)
  | .alias name, ns => (ns.lookup name).map fun n => (.alias n, ns)
  | .scalar anchor tag style text, ns =>
    let (a, ns) := numberAnchor anchor ns
    some (.scalar a tag style text, ns)
  | .sequence anchor tag items, ns =>
    let (a, ns) := numberAnchor anchor ns
    (numberedItems items ns).map fun r => (.sequence a tag r.1, r.2)
  | .mapping anchor tag fields, ns =>
    let (a, ns) := numberAnchor anchor ns
    (numberedFields fields ns).map fun r => (.mapping a tag r.1, r.2)

/-- Replace the names in items. -/
def numberedItems : List (Node String) → Numbering → Option (List (Node Nat) × Numbering)
  | [], ns => some ([], ns)
  | v :: vs, ns => do
    let (w, ns) ← numbered v ns
    let (ws, ns) ← numberedItems vs ns
    some (w :: ws, ns)

/-- Replace the names in fields. -/
def numberedFields : List (Node String × Node String) → Numbering →
    Option (List (Node Nat × Node Nat) × Numbering)
  | [], ns => some ([], ns)
  | (k, v) :: rest, ns => do
    let (k, ns) ← numbered k ns
    let (v, ns) ← numbered v ns
    let (rest, ns) ← numberedFields rest ns
    some ((k, v) :: rest, ns)

end

/-- The number a node carries. -/
def anchor? {ρ : Type} : Node ρ → Option ρ
  | .scalar a .. => a
  | .sequence a .. => a
  | .mapping a .. => a
  | .alias _ => none

/-- A node by its number, if it has one. -/
def entry (v : Node Nat) : List (Nat × Node Nat) :=
  match v.anchor? with
  | some n => [(n, v)]
  | none => []

mutual

/-- The numbered nodes of a tree, in the order in which they start. -/
def entries : Node Nat → List (Nat × Node Nat)
  | .alias _ => []
  | .scalar a t s x => entry (.scalar a t s x)
  | .sequence a t items => entry (.sequence a t items) ++ itemEntries items
  | .mapping a t fields => entry (.mapping a t fields) ++ fieldEntries fields

/-- The numbered nodes of items. -/
def itemEntries : List (Node Nat) → List (Nat × Node Nat)
  | [] => []
  | v :: vs => entries v ++ itemEntries vs

/-- The numbered nodes of fields. -/
def fieldEntries : List (Node Nat × Node Nat) → List (Nat × Node Nat)
  | [] => []
  | (k, v) :: rest => entries k ++ entries v ++ fieldEntries rest

end

mutual

/-- **The number of parts of a tree**: a scalar or alias is one, a collection two besides its
own. -/
def parts : Node Nat → Nat
  | .alias _ => 1
  | .scalar .. => 1
  | .sequence _ _ items => 2 + itemParts items
  | .mapping _ _ fields => 2 + fieldParts fields

/-- The number of parts of items. -/
def itemParts : List (Node Nat) → Nat
  | [] => 0
  | v :: vs => parts v + itemParts vs

/-- The number of parts of fields. -/
def fieldParts : List (Node Nat × Node Nat) → Nat
  | [] => 0
  | (k, v) :: rest => parts k + parts v + fieldParts rest

end

end Node

/-- **A document**: its tree, and the nodes that numbers stand for. -/
structure Document where
  root : Node Nat
  named : List (Nat × Node Nat)

namespace Document

/-- The document of a text, if it is one. -/
def ofText? (text : String) : Option Document := do
  let tokens ← tokens? text
  let tree ← Node.ofTokens? tokens
  let (root, _) ← tree.numbered []
  some { root, named := root.entries.reverse }

/-- So many aliases may be followed for each part of a document. -/
def aliasesPerPart : Nat := 100

/-- **The node itself, or the one it stands for.** -/
def follow (d : Document) : Node Nat → Reading (Node Nat)
  | .alias n => do
    modify (· + 1)
    if (← get) > d.root.parts * aliasesPerPart then failure
    else
      match d.named.lookup n with
      | some v => pure v
      | none => failure
  | v => pure v

/-- The tag of a type of the standard schema. -/
def standardTag (type : String) : String := "tag:yaml.org,2002:" ++ type

/-- The text of a scalar that may spell a value of a type: plain, or a literal block with the
tag of the type. -/
def typedText (type : String) : Node Nat → Option String
  | .scalar _ _ .plain text => some text
  | .scalar _ tag .literal text => if tag == some (standardTag type) then some text else none
  | _ => none

/-- Is a value left out here? -/
def isBlank : Node Nat → Bool
  | .scalar _ _ .plain text => text.isEmpty
  | _ => false

/-- Is the node a plain scalar that spells a null or is left out? -/
def isNull : Node Nat → Bool
  | .scalar _ _ .plain text => text.isEmpty || isNullText text
  | _ => false

/-- The name of a choice that a tag makes: what follows its exclamation mark. -/
def choiceTag (tag : Option String) : Option String :=
  match tag.map String.toList with
  | some ('!' :: c :: cs) => some (String.ofList (c :: cs))
  | _ => none

/-- The text of a scalar. -/
def scalarText : Node Nat → Option String
  | .scalar _ _ _ text => some text
  | _ => none

/-- Lift an optional value. -/
def orFail {α : Type} : Option α → Reading α
  | some a => pure a
  | none => failure

/-- The fields of a mapping with their names; every name has to be a scalar. -/
def namedFields (d : Document) (fields : List (Node Nat × Node Nat)) :
    Reading (List (String × Node Nat)) :=
  fields.mapM fun (k, v) => do
    let name ← orFail (scalarText (← d.follow k))
    pure (name, v)

/-- **Documents as a source.**  Any scalar is a text; a value that is left out is an empty list or
record; a tag with an exclamation mark makes a choice. -/
def source (d : Document) : Source (Node Nat) where
  text v := do orFail (scalarText (← d.follow v))
  bool v := do orFail ((typedText "bool" (← d.follow v)).bind truth?)
  nat v := do orFail (((typedText "int" (← d.follow v)).bind nat?).filter (· < Nat.pow 2 64))
  optional v := do
    let v ← d.follow v
    match v with
    | .scalar _ (some tag) .plain text =>
      if tag != standardTag "null" then pure (some v)
      else if isNullText text then pure none
      else failure
    | v => pure (if isNull v then none else some v)
  items v := do
    let v ← d.follow v
    match v with
    | .sequence _ _ items => pure items
    | v => if isBlank v then pure [] else failure
  fields names v := do
    let v ← d.follow v
    match v with
    | .mapping _ _ fields => do Source.known names (← d.namedFields fields)
    | v => if isBlank v then pure [] else failure
  choice v := do
    let v ← d.follow v
    match v with
    | .scalar _ tag _ text =>
      match choiceTag tag with
      | some name => if isNull v then pure name else failure
      | none => pure text
    | _ => failure

end Document

/-- **Read typed data out of a text.** -/
def read? {α : Type} (text : String) (read : Source (Node Nat) → Node Nat → Reading α) :
    Option α := do
  let d ← Document.ofText? text
  (read d.source d.root).result?

end Rollout.Yaml
