import Rollout.Value

/-!
# Value/Source — reading typed data out of a document

A `Source` is what a kind of document offers to a reader of typed data: its scalars, lists, records
and choices.  A reader is written once, over any source, and so means the same for every format.
Reading may follow references inside a document; the number followed so far is carried along, and a
source may give up when it grows too large.
-/

namespace Rollout

/-- A reading fails or yields a value, and counts the references it follows. -/
abbrev Reading := StateT Nat Option

/-- **What a document of nodes `ν` offers to a reader.** -/
structure Source (ν : Type) where
  /-- The node as a text. -/
  text : ν → Reading String
  /-- The node as a truth value. -/
  bool : ν → Reading Bool
  /-- The node as a natural number below `2 ^ 64`. -/
  nat : ν → Reading Nat
  /-- The node, or `none` if it stands for an absent value. -/
  optional : ν → Reading (Option ν)
  /-- The items of the node as a list. -/
  items : ν → Reading (List ν)
  /-- The fields of the node as a record, of those names only.  A name that occurs twice is
  refused; names not asked for may occur. -/
  fields : List String → ν → Reading (List (String × ν))
  /-- The name of the choice the node makes. -/
  choice : ν → Reading String

/-- Run a reading that has followed no reference yet. -/
def Reading.result? {α : Type} (r : Reading α) : Option α := (r.run 0).map Prod.fst

namespace Source

variable {ν α : Type}

/-- The fields that are asked for, each at most once. -/
def known (names : List String) (fields : List (String × ν)) : Reading (List (String × ν)) :=
  let asked := fields.filter fun f => names.contains f.1
  if (asked.map Prod.fst).Nodup then pure asked else failure

/-- The field of that name; there must be one. -/
def required (fields : List (String × ν)) (name : String) (read : ν → Reading α) : Reading α :=
  match fields.lookup name with
  | some v => read v
  | none => failure

/-- The field of that name, or `default` if there is none. -/
def withDefault (fields : List (String × ν)) (name : String) (read : ν → Reading α)
    (default : α) : Reading α :=
  match fields.lookup name with
  | some v => read v
  | none => pure default

/-- The field of that name, absent if there is none or if it stands for an absent value. -/
def maybe (s : Source ν) (fields : List (String × ν)) (name : String)
    (read : ν → Reading α) : Reading (Option α) :=
  withDefault fields name
    (fun v => do
      match ← s.optional v with
      | some v => some <$> read v
      | none => pure none)
    none

/-- The items of a list, each read the same way. -/
def each (s : Source ν) (read : ν → Reading α) (v : ν) : Reading (List α) := do
  (← s.items v).mapM read

/-- A number that fits a 16-bit word. -/
def word16 (s : Source ν) (v : ν) : Reading UInt16 := do
  let n ← s.nat v
  if n < UInt16.size then pure n.toUInt16 else failure

/-- A number that fits a 32-bit word. -/
def word32 (s : Source ν) (v : ν) : Reading UInt32 := do
  let n ← s.nat v
  if n < UInt32.size then pure n.toUInt32 else failure

end Source

/-- **Values as a source.**  A record may also be written as the list of its leading fields in
their order, and a choice as a record of one field without content. -/
def Value.source : Source Value where
  text
    | .text s => pure s
    | _ => failure
  bool
    | .bool b => pure b
    | _ => failure
  nat
    | .int (.ofNat n) => pure n
    | _ => failure
  optional
    | .null => pure none
    | v => pure (some v)
  items
    | .list vs => pure vs
    | _ => failure
  fields names
    | .record fs => Source.known names fs
    | .list vs => if vs.length ≤ names.length then pure (names.zip vs) else failure
    | _ => failure
  choice
    | .text s => pure s
    | .record [(s, .null)] => pure s
    | _ => failure

end Rollout
