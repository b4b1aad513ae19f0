import Rollout.Text.Magnitude
import Rollout.Value

/-!
# Json/Parse — JSON text as values

`parse` reads exactly one value with blanks around it.  A number without fraction and exponent is
an integer while it fits 64 bits, every other number keeps its spelling; one that rounds to
infinity is refused.  An escaped pair of surrogates is one character, a lone surrogate is refused,
and so is nesting deeper than 127.
-/

namespace Rollout.Json

/-- The four blanks of the format. -/
def isSpace (c : Char) : Bool := c == ' ' || c == '\n' || c == '\t' || c == '\r'

/-- Skip blanks. -/
def skipSpace (cs : List Char) : List Char := cs.dropWhile isSpace

/-- The number of four hexadecimal digits. -/
def hexUnit (a b c d : Char) : Option Nat := Text.ofDigits 16 [a, b, c, d]

/-- **The UTF-16 units of a quoted text and what follows its closing quote.**  A character outside
an escape counts as one unit whatever its size. -/
def readUnits : List Char → Option (List Nat × List Char)
  | [] => none
  | '"' :: rest => some ([], rest)
  | '\\' :: 'u' :: a :: b :: c :: d :: rest => do
    let n ← hexUnit a b c d
    let (us, r) ← readUnits rest
    some (n :: us, r)
  | '\\' :: e :: rest => do
    let n ← match e with
      | '"' => some 34
      | '\\' => some 92
      | '/' => some 47
      | 'b' => some 8
      | 'f' => some 12
      | 'n' => some 10
      | 'r' => some 13
      | 't' => some 9
      | _ => none
    let (us, r) ← readUnits rest
    some (n :: us, r)
  | c :: rest =>
    if c.toNat < 32 ∨ c = '\\' then none
    else do
      let (us, r) ← readUnits rest
      some (c.toNat :: us, r)

/-- Is the unit the first half of a surrogate pair? -/
def isHigh (n : Nat) : Bool := 0xD800 ≤ n && n < 0xDC00

/-- Is the unit the second half of a surrogate pair? -/
def isLow (n : Nat) : Bool := 0xDC00 ≤ n && n < 0xE000

/-- **The characters that units spell**; `none` at a surrogate without its other half. -/
def joinUnits : List Nat → Option (List Char)
  | [] => some []
  | [n] => if isHigh n || isLow n then none else some [Char.ofNat n]
  | n :: m :: rest =>
    if isHigh n then
      if isLow m then
        (joinUnits rest).map (Char.ofNat (0x10000 + (n - 0xD800) * 0x400 + (m - 0xDC00)) :: ·)
      else none
    else if isLow n then none
    else (joinUnits (m :: rest)).map (Char.ofNat n :: ·)

/-- A text, from behind its opening quote. -/
def readText (cs : List Char) : Option (String × List Char) := do
  let (us, rest) ← readUnits cs
  let s ← joinUnits us
  some (String.ofList s, rest)

/-- The whole digits of a number: a single zero, or digits that do not start with one. -/
def readWhole (cs : List Char) : Option (List Char × List Char) :=
  match cs with
  | '0' :: rest => some (['0'], rest)
  | cs =>
    let ds := cs.takeWhile Text.isDigit
    if ds.isEmpty then none else some (ds, cs.drop ds.length)

/-- The digits after a point; none and nothing taken when there is no point. -/
def readFraction : List Char → Option (List Char × List Char)
  | '.' :: rest =>
    let ds := rest.takeWhile Text.isDigit
    if ds.isEmpty then none else some (ds, rest.drop ds.length)
  | cs => some ([], cs)

/-- Does a fraction or an exponent start here? -/
def continuesNumber : List Char → Bool
  | c :: _ => c == '.' || c == 'e' || c == 'E'
  | [] => false

/-- A minus sign is taken off the front. -/
def readSign : List Char → Bool × List Char
  | '-' :: rest => (true, rest)
  | cs => (false, cs)

/-- **A number.**  Without fraction and exponent it is an integer if it fits a signed or unsigned
64-bit word; minus zero is none. -/
def readNumber (cs : List Char) : Option (Value × List Char) := do
  let (negative, body) := readSign cs
  let (whole, afterWhole) ← readWhole body
  let n ← Text.ofDigits 10 whole
  let isInteger := if negative then 0 < n ∧ n ≤ Nat.pow 2 63 else n < Nat.pow 2 64
  if isInteger ∧ ¬ continuesNumber afterWhole then
    some (.int (if negative then -n else n), afterWhole)
  else
    let (fraction, afterFraction) ← readFraction afterWhole
    let (exponent, rest) ← Text.readExponent afterFraction
    if (Text.Decimal.mk whole fraction exponent).isFinite then
      some (.real (String.ofList (cs.take (cs.length - rest.length))), rest)
    else none

/-- Take a fixed word off the front. -/
def word (w : String) (v : Value) (cs : List Char) : Option (Value × List Char) :=
  (w.toList.isPrefixOf? cs).map fun rest => (v, rest)

mutual

/-- **A value and what follows it.**  `depth` counts the lists and records that may still be
opened, `fuel` bounds the characters taken. -/
def readValue : (fuel depth : Nat) → List Char → Option (Value × List Char)
  | 0, _, _ => none
  | fuel + 1, depth, cs =>
    match skipSpace cs with
    | '"' :: rest => (readText rest).map fun r => (.text r.1, r.2)
    | '[' :: rest =>
      match depth with
      | 0 => none
      | depth + 1 =>
        match skipSpace rest with
        | ']' :: rest => some (.list [], rest)
        | rest => (readItems fuel depth rest).map fun r => (.list r.1, r.2)
    | '{' :: rest =>
      match depth with
      | 0 => none
      | depth + 1 =>
        match skipSpace rest with
        | '}' :: rest => some (.record [], rest)
        | rest => (readFields fuel depth rest).map fun r => (.record r.1, r.2)
    | 'n' :: rest => word "ull" .null rest
    | 't' :: rest => word "rue" (.bool true) rest
    | 'f' :: rest => word "alse" (.bool false) rest
    | rest => readNumber rest

/-- The items of a list up to its closing bracket. -/
def readItems : (fuel depth : Nat) → List Char → Option (List Value × List Char)
  | 0, _, _ => none
  | fuel + 1, depth, cs => do
    let (v, rest) ← readValue fuel depth cs
    match skipSpace rest with
    | ',' :: rest =>
      let (vs, rest) ← readItems fuel depth rest
      some (v :: vs, rest)
    | ']' :: rest => some ([v], rest)
    | _ => none

/-- The fields of a record up to its closing brace. -/
def readFields : (fuel depth : Nat) → List Char → Option (List (String × Value) × List Char)
  | 0, _, _ => none
  | fuel + 1, depth, cs =>
    match skipSpace cs with
    | '"' :: rest => do
      let (name, rest) ← readText rest
      match skipSpace rest with
      | ':' :: rest =>
        let (v, rest) ← readValue fuel depth rest
        match skipSpace rest with
        | ',' :: rest =>
          let (fs, rest) ← readFields fuel depth rest
          some ((name, v) :: fs, rest)
        | '}' :: rest => some ([(name, v)], rest)
        | _ => none
      | _ => none
    | _ => none

end

/-- Lists and records may nest this deep. -/
def maxDepth : Nat := 127

/-- **The one value a text spells.** -/
def parse (s : String) : Option Value :=
  match readValue (2 * s.toList.length + 2) maxDepth s.toList with
  | some (v, rest) => if (skipSpace rest).isEmpty then some v else none
  | none => none

end Rollout.Json
