import Rollout.Value
import Rollout.Yaml.Resolve

/-!
# Yaml/Write — values as YAML text

`render` writes a value in block style: two columns for each level, a list under a field at the
column of the field, no line ever folded.  A text is written plain where it reads back as the same
text; else quoted, or as a literal block if it has several lines.
-/

namespace Rollout.Yaml

/-! ## How a text may be written -/

/-- May the character stand unescaped? -/
def isPrintable (c : Char) : Bool :=
  let n := c.toNat
  n == 0x0A || (0x20 ≤ n && n ≤ 0x7E) || (0xA0 ≤ n && n ≤ 0xD7FF)
    || (0xE000 ≤ n && n ≤ 0xFFFD && n != 0xFEFF) || 0x10000 ≤ n

/-- The characters that cannot start a plain scalar. -/
def isLeadIndicator (c : Char) : Bool := "#,[]\x7b\x7d&*!|>'\"%@\x60".toList.contains c

/-- Does the first character make a plain scalar impossible? -/
def hasBadLead : List Char → Bool
  | c :: rest => isLeadIndicator c || ("?:-".toList.contains c && endsWord rest)
  | [] => false

/-- Is there, behind the first character, a colon before a gap or a hash behind one? -/
def hasBadInside : List Char → Bool
  | a :: b :: rest =>
    (b == ':' && endsWord rest) || (b == '#' && (isGap a || isBreak a)) || hasBadInside (b :: rest)
  | _ => false

/-- Does a text start like a marker of a document? -/
def hasMarkerLead (cs : List Char) : Bool :=
  cs.take 3 == ['-', '-', '-'] || cs.take 3 == ['.', '.', '.']

/-- Does a character with the first property stand right before one with the second? -/
def hasPair (p q : Char → Bool) : List Char → Bool
  | a :: b :: rest => (p a && q b) || hasPair p q (b :: rest)
  | _ => false

/-- Is the character a space? -/
def isSpace (c : Char) : Bool := c == ' '

/-- Does a text need escapes? -/
def needsEscapes (cs : List Char) : Bool :=
  cs.any (fun c => !isPrintable c) || hasPair isSpace isBreak cs

/-- May the text be written plain, as far as its characters go? -/
def plainAllowed (cs : List Char) : Bool :=
  !(cs.isEmpty || cs.head?.any isSpace || cs.getLast?.any isSpace || cs.any isBreak
    || hasBadLead cs || hasBadInside cs || hasMarkerLead cs || needsEscapes cs)

/-- May the text be written in single quotes? -/
def singleAllowed (cs : List Char) : Bool := !(hasPair isBreak isSpace cs || needsEscapes cs)

/-- May the text be written as a literal block? -/
def literalAllowed (cs : List Char) : Bool := !(cs.getLast?.any isSpace || needsEscapes cs)

/-- **The style a text is written in.** -/
def styleOf (s : String) : ScalarStyle :=
  let cs := s.toList
  if cs.contains '\n' && literalAllowed cs then .literal
  else if !cs.contains '\n' && readsAsText s && plainAllowed cs then .plain
  else if !cs.contains '\n' && singleAllowed cs then .singleQuoted
  else .doubleQuoted

/-! ## Writing one text -/

/-- Spaces up to a column. -/
def spaces (n : Nat) : List Char := List.replicate n ' '

/-- A text between single quotes.  Behind a line break follow `indent` spaces. -/
def singleBody (indent : Nat) : (afterBreak : Bool) → List Char → List Char
  | afterBreak, [] => if afterBreak then spaces indent else []
  | afterBreak, c :: cs =>
    if isBreak c then c :: singleBody indent true cs
    else
      let lead := if afterBreak then spaces indent else []
      lead ++ (if c == '\'' then ['\'', '\''] else [c]) ++ singleBody indent false cs

/-- The number in hexadecimal capitals, with so many digits. -/
def hexText (width n : Nat) : List Char :=
  let ds := (Nat.toDigits 16 n).map Char.toUpper
  List.replicate (width - ds.length) '0' ++ ds

/-- The escape of a character. -/
def escape (c : Char) : List Char :=
  let n := c.toNat
  match n with
  | 0x00 => "\\0".toList
  | 0x07 => "\\a".toList
  | 0x08 => "\\b".toList
  | 0x09 => "\\t".toList
  | 0x0A => "\\n".toList
  | 0x0B => "\\v".toList
  | 0x0C => "\\f".toList
  | 0x0D => "\\r".toList
  | 0x1B => "\\e".toList
  | 0x22 => "\\\"".toList
  | 0x5C => "\\\\".toList
  | 0x85 => "\\N".toList
  | 0xA0 => "\\_".toList
  | 0x2028 => "\\L".toList
  | 0x2029 => "\\P".toList
  | _ =>
    if n ≤ 0xFF then '\\' :: 'x' :: hexText 2 n
    else if n ≤ 0xFFFF then '\\' :: 'u' :: hexText 4 n
    else '\\' :: 'U' :: hexText 8 n

/-- A text between double quotes. -/
def doubleBody (cs : List Char) : List Char :=
  cs.flatMap fun c =>
    if isPrintable c && !isBreak c && c != '"' && c != '\\' then [c] else escape c

/-- The lines of a literal block, each behind `indent` spaces; empty lines have none. -/
def literalBody (indent : Nat) : (lineStart : Bool) → List Char → List Char
  | _, [] => []
  | lineStart, c :: cs =>
    if isBreak c then c :: literalBody indent true cs
    else (if lineStart then spaces indent else []) ++ c :: literalBody indent false cs

/-- The indicators of a literal block: its indentation if the first character hides it, and
whether line breaks at the end are dropped or kept. -/
def literalHead (cs : List Char) : List Char :=
  let hint := if cs.head?.any fun c => isSpace c || isBreak c then ['2'] else []
  let chomping :=
    match cs.reverse with
    | a :: b :: _ => if !isBreak a then ['-'] else if isBreak b then ['+'] else []
    | [a] => if isBreak a then ['+'] else ['-']
    | [] => ['-']
  '|' :: hint ++ chomping

/-- **A text as a scalar**, without the line break behind it.  `indent` is the column of its
further lines. -/
def scalarText (indent : Nat) (s : String) : List Char :=
  let cs := s.toList
  match styleOf s with
  | .plain => cs
  | .singleQuoted => '\'' :: singleBody indent false cs ++ ['\'']
  | .literal | .folded => literalHead cs ++ '\n' :: literalBody indent true cs
  | .doubleQuoted => '"' :: doubleBody cs ++ ['"']

/-! ## Writing a value -/

/-- End a line, unless it is ended. -/
def endLine (cs : List Char) : List Char :=
  if cs.getLast?.any isBreak then cs else cs ++ ['\n']

mutual

/-- What follows a field's colon or an item's dash, up to the end of its last line.  `column` is
that of the collection around it, `listColumn` the one where a list inside starts. -/
def nested (column listColumn : Nat) : Value → List Char
  | .null => " null\n".toList
  | .bool b => if b then " true\n".toList else " false\n".toList
  | .int n => ' ' :: (Text.signed n).toList ++ ['\n']
  | .real literal => ' ' :: literal.toList ++ ['\n']
  | .text s => endLine (' ' :: scalarText (column + 2) s)
  | .list [] => " []\n".toList
  | .record [] => " \x7b\x7d\n".toList
  | .list (v :: vs) => '\n' :: listLines listColumn (v :: vs)
  | .record (f :: fs) => '\n' :: recordLines (column + 2) (f :: fs)

/-- The lines of a list. -/
def listLines (column : Nat) : List Value → List Char
  | [] => []
  | v :: vs => spaces column ++ '-' :: item column v ++ listLines column vs

/-- What follows the dash of an item; a collection starts on the line of the dash. -/
def item (column : Nat) : Value → List Char
  | .list (v :: vs) => ' ' :: '-' :: item (column + 2) v ++ listLines (column + 2) vs
  | .record ((n, v) :: fs) =>
    ' ' :: n.toList ++ ':' :: nested (column + 2) (column + 2) v
      ++ recordLines (column + 2) fs
  | v => nested column (column + 2) v

/-- The lines of a record. -/
def recordLines (column : Nat) : List (String × Value) → List Char
  | [] => []
  | (n, v) :: fs =>
    spaces column ++ n.toList ++ ':' :: nested column column v ++ recordLines column fs

end

/-- **A value as a text.**  The names of fields are words that need no quotes. -/
def render : Value → String
  | .list (v :: vs) => String.ofList (listLines 0 (v :: vs))
  | .record (f :: fs) => String.ofList (recordLines 0 (f :: fs))
  | v => String.ofList ((nested 0 0 v).drop 1)

end Rollout.Yaml
