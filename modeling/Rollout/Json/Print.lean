import Rollout.Text.Decimal
import Rollout.Value

/-!
# Json/Print — values as JSON text

`compact` writes a value on one line without blanks, `pretty` writes one item a line with an
indentation of two.  A control character never appears in the output as itself: `quoted` escapes
every character below the blank, so a compact text is always one line.
-/

namespace Rollout.Json

/-- One hexadecimal digit, in lower case. -/
def hexDigit (n : Nat) : Char := Nat.digitChar (n % 16)

/-- **How a character stands inside quotes.**  The quote, the backslash and the controls below the
blank are escaped, everything else stands for itself. -/
def escaped (c : Char) : List Char :=
  match c with
  | '"' => ['\\', '"']
  | '\\' => ['\\', '\\']
  | '\n' => ['\\', 'n']
  | '\r' => ['\\', 'r']
  | '\t' => ['\\', 't']
  | c =>
    if c.toNat = 8 then ['\\', 'b']
    else if c.toNat = 12 then ['\\', 'f']
    else if c.toNat < 32 then
      ['\\', 'u', '0', '0', hexDigit (c.toNat / 16), hexDigit c.toNat]
    else [c]

/-- A text in quotes. -/
def quoted (s : String) : String :=
  String.ofList ('"' :: s.toList.flatMap escaped ++ ['"'])

mutual

/-- **A value on one line.** -/
def compact : Value → String
  | .null => "null"
  | .bool true => "true"
  | .bool false => "false"
  | .int n => Text.signed n
  | .real literal => literal
  | .text s => quoted s
  | .list items => "[" ++ ",".intercalate (compactItems items) ++ "]"
  | .record fields => "\x7b" ++ ",".intercalate (compactFields fields) ++ "\x7d"

/-- The items of a list, each on one line. -/
def compactItems : List Value → List String
  | [] => []
  | v :: vs => compact v :: compactItems vs

/-- The fields of a record, each as name and value. -/
def compactFields : List (String × Value) → List String
  | [] => []
  | (name, v) :: rest => (quoted name ++ ":" ++ compact v) :: compactFields rest

end

/-- The line break and indentation of a depth. -/
def newline (depth : Nat) : String :=
  String.ofList ('\n' :: List.replicate (2 * depth) ' ')

mutual

/-- **A value with one item a line**, at the given depth.  Empty lists and records stay on one
line. -/
def prettyAt (depth : Nat) : Value → String
  | .list items =>
    if items.isEmpty then "[]"
    else
      "[" ++ ",".intercalate (prettyItems (depth + 1) items) ++ newline depth ++ "]"
  | .record fields =>
    if fields.isEmpty then "\x7b\x7d"
    else
      "\x7b" ++ ",".intercalate (prettyFields (depth + 1) fields) ++ newline depth ++ "\x7d"
  | .null => "null"
  | .bool true => "true"
  | .bool false => "false"
  | .int n => Text.signed n
  | .real literal => literal
  | .text s => quoted s

/-- The items of a list, each on its own line. -/
def prettyItems (depth : Nat) : List Value → List String
  | [] => []
  | v :: vs => (newline depth ++ prettyAt depth v) :: prettyItems depth vs

/-- The fields of a record, each on its own line. -/
def prettyFields (depth : Nat) : List (String × Value) → List String
  | [] => []
  | (name, v) :: rest =>
    (newline depth ++ quoted name ++ ": " ++ prettyAt depth v) :: prettyFields depth rest

end

/-- A value with one item a line. -/
def pretty (v : Value) : String := prettyAt 0 v

end Rollout.Json
