import Rollout.Yaml.Cursor

/-!
# Yaml/Name — anchors, tags and directives

The parts of a text that name things: an anchor names a node, a tag its type, and a directive
declares the version of the format or a handle for tags.
-/

namespace Rollout.Yaml

/-! ## Anchors -/

/-- Does a name of an anchor end here? -/
def endsAnchor (rest : List Char) : Bool :=
  endsWord rest || rest.head?.any fun x => "?:,]\x7d%@\x60".toList.contains x

/-- The name behind `&` or `*`. -/
def readAnchor (c : Cursor) : Option (String × Cursor) :=
  let name := (c.skip 1).ahead isWord
  let c := c.skip (name.length + 1)
  if name.isEmpty || !endsAnchor c.rest then none else some (String.ofList name, c)

/-! ## Tags -/

/-- The number of octets that the first octet of a character announces. -/
def octetCount? (lead : Nat) : Option Nat :=
  if lead < 0x80 then some 1
  else if 0xC0 ≤ lead && lead < 0xE0 then some 2
  else if 0xE0 ≤ lead && lead < 0xF0 then some 3
  else if 0xF0 ≤ lead && lead < 0xF8 then some 4
  else none

/-- Read `n` octets written as a percent sign and two hexadecimal digits. -/
def readOctets : (n : Nat) → List Char → Option (List Nat × List Char)
  | 0, cs => some ([], cs)
  | n + 1, '%' :: a :: b :: rest => do
    let x ← Text.ofDigits 16 [a, b]
    let (xs, rest) ← readOctets n rest
    some (x :: xs, rest)
  | _, _ => none

/-- The character that octets spell, or the replacement character if they spell none. -/
def octetChar (octets : List Nat) : Char :=
  let bytes : ByteArray := ⟨(octets.map fun n => UInt8.ofNat n).toArray⟩
  match (String.fromUTF8? bytes).map String.toList with
  | some [c] => c
  | _ => Char.ofNat 0xFFFD

/-- One character of a tag that is written in octets. -/
def readOctetChar (cs : List Char) : Option (Char × List Char) := do
  let (first, _) ← readOctets 1 cs
  let n ← octetCount? (first.headD 0)
  let (octets, rest) ← readOctets n cs
  if octets.tail.all fun x => 0x80 ≤ x && x < 0xC0 then some (octetChar octets, rest) else none

/-- The characters of a tag, octets decoded.  Between angle brackets commas and square brackets
belong to it too. -/
def readTagChars (verbatim : Bool) : (fuel : Nat) → List Char → Option (List Char × List Char)
  | 0, _ => none
  | _ + 1, [] => some ([], [])
  | fuel + 1, c :: rest =>
    if c == '%' then do
      let (x, rest) ← readOctetChar (c :: rest)
      let (xs, rest) ← readTagChars verbatim fuel rest
      some (x :: xs, rest)
    else if isTagChar c || (verbatim && (c == ',' || c == '[' || c == ']')) then
      (readTagChars verbatim fuel rest).map fun r => (c :: r.1, r.2)
    else some ([], c :: rest)

/-- The characters of a tag from a place on. -/
def readSuffix (verbatim : Bool) (c : Cursor) : Option (List Char × Cursor) :=
  (readTagChars verbatim (c.rest.length + 1) c.rest).map fun r => (r.1, c.moveTo r.2)

/-- A handle: an exclamation mark, and after word characters perhaps a second one. -/
def readHandle (c : Cursor) : Option (List Char × Cursor) :=
  if c.sees '!' then
    let word := (c.skip 1).ahead isWord
    let c := c.skip (word.length + 1)
    if c.sees '!' then some ('!' :: word ++ ['!'], c.skip 1) else some ('!' :: word, c)
  else none

/-- Handle and suffix of a tag.  Between angle brackets the tag has no handle; a lone exclamation
mark is a suffix without a handle. -/
def readTagParts (c : Cursor) : Option (String × String × Cursor) :=
  match c.rest with
  | '!' :: '<' :: _ => do
    let (suffix, c) ← readSuffix true (c.skip 2)
    if suffix.isEmpty || !c.sees '>' then none
    else some ("", String.ofList suffix, c.skip 1)
  | _ => do
    let (handle, c) ← readHandle c
    let (suffix, c) ← readSuffix false c
    if handle.length > 1 && handle.getLast? == some '!' then
      if suffix.isEmpty then none else some (String.ofList handle, String.ofList suffix, c)
    else
      match handle.drop 1 ++ suffix with
      | [] => some ("", "!", c)
      | suffix => some ("!", String.ofList suffix, c)

/-- **A tag**: its handle, its suffix, and the place behind it.  A gap has to follow, or a comma
inside a flow collection. -/
def readTag (flow : Bool) (c : Cursor) : Option (String × String × Cursor) := do
  let (handle, suffix, c) ← readTagParts c
  if c.atWordEnd || (flow && c.sees ',') then some (handle, suffix, c) else none

/-! ## Directives -/

/-- A number of at most nine digits. -/
def readVersionNumber (c : Cursor) : Option (Nat × Cursor) :=
  let ds := c.ahead Text.isDigit
  if ds.length > 9 then none else (Text.ofDigits 10 ds).map fun n => (n, c.skip ds.length)

/-- The version that a directive declares. -/
def readVersion (c : Cursor) : Option (Token × Cursor) := do
  let (major, c) ← readVersionNumber (c.skipWhile isGap)
  if c.sees '.' then
    let (minor, c) ← readVersionNumber (c.skip 1)
    some (.versionDirective major minor, c)
  else none

/-- The handle that a directive declares and what it stands for. -/
def readHandleDirective (c : Cursor) : Option (Token × Cursor) := do
  let (handle, c) ← readHandle (c.skipWhile isGap)
  if (handle.length > 1 && handle.getLast? != some '!') || !c.atGap then none
  else
    let (stem, c) ← readSuffix true (c.skipWhile isGap)
    if stem.isEmpty || !c.atWordEnd then none
    else some (.tagDirective (String.ofList handle) (String.ofList stem), c)

/-- **A directive**, with its whole line. -/
def readDirective (c : Cursor) : Option (Token × Cursor) := do
  let name := (c.skip 1).ahead isWord
  let c := c.skip (name.length + 1)
  if name.isEmpty || !c.atWordEnd then none
  else
    let (token, c) ←
      if name = "YAML".toList then readVersion c
      else if name = "TAG".toList then readHandleDirective c
      else none
    let c := (c.skipWhile isGap).skipComment
    if c.rest.isEmpty || c.atBreak then some (token, c.nextLine.2) else none

end Rollout.Yaml
