import Rollout.Text.Magnitude
import Rollout.Yaml.Node

/-!
# Yaml/Resolve — what a plain scalar means

A plain scalar may spell a null, a truth value or a number.  `readsAsText` is false of exactly the
texts that would not read back as a text if they were written plain.
-/

namespace Rollout.Yaml

/-- Does the text spell a null?  The empty text does not. -/
def isNullText (s : String) : Bool := ["null", "Null", "NULL", "~"].contains s

/-- The truth value a text spells. -/
def truth? (s : String) : Option Bool :=
  if ["true", "True", "TRUE"].contains s then some true
  else if ["false", "False", "FALSE"].contains s then some false
  else none

/-- Is a character a sign? -/
def isSign (c : Char) : Bool := c == '+' || c == '-'

/-- Without the character at the front, if it is there. -/
def dropSign (sign : Char) : List Char → List Char
  | c :: cs => if c == sign then cs else c :: cs
  | [] => []

/-- Digits behind a zero, perhaps behind a sign: they spell no number. -/
def hasLeadingZero (cs : List Char) : Bool :=
  let cs := match cs with
    | c :: rest => if isSign c then rest else cs
    | [] => []
  match cs with
  | '0' :: c :: rest => (c :: rest).all Text.isDigit
  | _ => false

/-- The number that digits with a mark of their base spell. -/
def baseNumber? : List Char → Option Nat
  | '0' :: 'x' :: ds => Text.ofDigits 16 ds
  | '0' :: 'o' :: ds => Text.ofDigits 8 ds
  | '0' :: 'b' :: ds => Text.ofDigits 2 ds
  | _ => none

/-- **The natural number a text spells.** -/
def nat? (s : String) : Option Nat :=
  let cs := s.toList
  let unsigned := dropSign '+' cs
  match baseNumber? unsigned with
  | some n => some n
  | none => if hasLeadingZero cs then none else Text.ofDigits 10 unsigned

/-- The size of the negative number a text spells. -/
def negative? (s : String) : Option Nat :=
  match s.toList with
  | '-' :: cs =>
    match baseNumber? cs with
    | some n => some n
    | none => if hasLeadingZero cs then none else Text.ofDigits 10 cs
  | _ => none

/-- Do characters spell a finite decimal number: digits, a point and an exponent that may be
absent? -/
def isFiniteDecimal (cs : List Char) : Bool :=
  let whole := cs.takeWhile Text.isDigit
  let afterWhole := cs.drop whole.length
  let (fraction, rest) := match afterWhole with
    | '.' :: r =>
      let ds := r.takeWhile Text.isDigit
      (ds, r.drop ds.length)
    | r => ([], r)
  if whole.isEmpty && fraction.isEmpty then false
  else
    match Text.readExponent rest with
    | some (exponent, []) => (Text.Decimal.mk whole fraction exponent).isFinite
    | _ => false

/-- Does a text spell a real number, an infinity, or no number by its name? -/
def isRealText (s : String) : Bool :=
  let cs := s.toList
  let unsigned := dropSign '+' cs
  let doubleSign := cs.head? == some '+' && unsigned.head?.any isSign
  if doubleSign then false
  else
    [".inf", ".Inf", ".INF"].contains (String.ofList unsigned)
      || ["-.inf", "-.Inf", "-.INF", ".nan", ".NaN", ".NAN"].contains s
      || isFiniteDecimal (dropSign '-' unsigned)

/-- Does a text spell an integer of at most 128 bits? -/
def isIntegerText (s : String) : Bool :=
  (nat? s).any (· < Nat.pow 2 128) || (negative? s).any (· ≤ Nat.pow 2 127)

/-- **Does a plain scalar with this text read as a text?** -/
def readsAsText (s : String) : Bool :=
  !(s.isEmpty || isNullText s || (truth? s).isSome || isIntegerText s
    || hasLeadingZero s.toList || isRealText s)

end Rollout.Yaml
