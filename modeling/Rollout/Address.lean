import Rollout.Text.Decimal

/-!
# Address — IP addresses and their order

`Address.parse` reads the two textual forms: four decimal octets, and eight hexadecimal groups of
which one run of zeros may be written `::` and the last two may be written as octets.  No leading
zero is allowed in an octet and no zone after an address.  Addresses of version 4 come before
those of version 6, and inside a version they are ordered as numbers (`Address.le`).
-/

namespace Rollout

/-- An IP address. -/
inductive Address where
  /-- Version 4, as one 32-bit word. -/
  | v4 (bits : BitVec 32)
  /-- Version 6, as one 128-bit word. -/
  | v6 (bits : BitVec 128)
  deriving DecidableEq, Repr

namespace Address

/-- A reader takes a value off the front of the text. -/
abbrev Reader (α : Type) := List Char → Option (α × List Char)

/-- Take the given character. -/
def char (c : Char) : Reader Unit
  | [] => none
  | d :: cs => if d = c then some ((), cs) else none

/-- **One octet**: up to three decimal digits, no leading zero, at most 255. -/
def octet : Reader Nat := fun cs =>
  let ds := cs.takeWhile Text.isDigit
  if ds.length > 3 ∨ (ds.length > 1 ∧ ds.head? = some '0') then none
  else
    match Text.ofDigits 10 ds with
    | some n => if n < 256 then some (n, cs.drop ds.length) else none
    | none => none

/-- **Four octets with points between them**, as one number. -/
def dotted : Reader Nat := fun cs => do
  let (a, cs) ← octet cs
  let (_, cs) ← char '.' cs
  let (b, cs) ← octet cs
  let (_, cs) ← char '.' cs
  let (c, cs) ← octet cs
  let (_, cs) ← char '.' cs
  let (d, cs) ← octet cs
  some (((a * 256 + b) * 256 + c) * 256 + d, cs)

/-- Is the character a hexadecimal digit? -/
def isHexDigit (c : Char) : Bool := (Text.digitValue? 16 c).isSome

/-- **One group**: up to four hexadecimal digits. -/
def group : Reader Nat := fun cs =>
  let ds := cs.takeWhile isHexDigit
  if ds.length > 4 then none
  else (Text.ofDigits 16 ds).map fun n => (n, cs.drop ds.length)

/-- Skip the colon that stands before every group but the first. -/
def separator (first : Bool) : Reader Unit := fun cs =>
  if first then some ((), cs) else char ':' cs

/-- What a run of groups yields: the groups, whether octets ended it, and the rest of the text. -/
structure Groups where
  groups : List Nat
  dotted : Bool
  rest : List Char

/-- **Up to `limit` groups with colons between them.**  Four octets may stand where two groups
still fit, and end the run. -/
def readGroups : (limit : Nat) → (first : Bool) → List Char → Groups
  | 0, _, cs => ⟨[], false, cs⟩
  | limit + 1, first, cs =>
    let tail := if limit = 0 then none else (separator first cs).bind fun r => dotted r.2
    match tail with
    | some (n, rest) => ⟨[n / 65536, n % 65536], true, rest⟩
    | none =>
      match (separator first cs).bind fun r => group r.2 with
      | some (g, rest) =>
        let more := readGroups limit false rest
        ⟨g :: more.groups, more.dotted, more.rest⟩
      | none => ⟨[], false, cs⟩

/-- The number that a list of 16-bit groups spells. -/
def ofGroups (gs : List Nat) : Nat := gs.foldl (fun n g => n * 65536 + g) 0

/-- **Eight groups**, or fewer with one `::` that stands for at least one group of zeros. -/
def colons : Reader Nat := fun cs =>
  let head := readGroups 8 true cs
  if head.groups.length = 8 then some (ofGroups head.groups, head.rest)
  else if head.dotted then none
  else
    match head.rest with
    | ':' :: ':' :: cs =>
      let tail := readGroups (8 - (head.groups.length + 1)) true cs
      let zeros := List.replicate (8 - head.groups.length - tail.groups.length) 0
      some (ofGroups (head.groups ++ zeros ++ tail.groups), tail.rest)
    | _ => none

/-- **The address a text spells**; nothing may follow it. -/
def parse (s : String) : Option Address :=
  match dotted s.toList with
  | some (n, rest) => if rest.isEmpty then some (.v4 (BitVec.ofNat 32 n)) else none
  | none =>
    match colons s.toList with
    | some (n, rest) => if rest.isEmpty then some (.v6 (BitVec.ofNat 128 n)) else none
    | none => none

/-- Where an address stands in the order: its version, then its number. -/
def rank : Address → Nat × Nat
  | .v4 bits => (4, bits.toNat)
  | .v6 bits => (6, bits.toNat)

/-- Where a text stands among address texts: a text that is no address comes first. -/
def rankOf (s : String) : Nat × Nat :=
  match parse s with
  | some a => a.rank
  | none => (0, 0)

end Address

end Rollout
