/-!
# Text/Decimal — numbers as decimal text

`digits` is the usual decimal spelling, `padded` fills it with zeros on the left up to a width,
and `ofDigits` reads a run of digits in any base up to sixteen.
-/

namespace Rollout.Text

/-- The decimal digits of a number, without leading zeros. -/
def digits (n : Nat) : List Char := Nat.toDigits 10 n

/-- The decimal spelling of a number. -/
def decimal (n : Nat) : String := String.ofList (digits n)

/-- **The decimal spelling, filled with zeros on the left up to `width`.**  Longer spellings are
kept whole. -/
def padded (width n : Nat) : String :=
  String.ofList (List.replicate (width - (digits n).length) '0' ++ digits n)

/-- The decimal spelling of an integer. -/
def signed : Int → String
  | .ofNat n => decimal n
  | .negSucc n => "-" ++ decimal (n + 1)

/-- The value of one digit in a base of at most sixteen, letters in either case. -/
def digitValue? (base : Nat) (c : Char) : Option Nat :=
  let n := c.toNat
  let v :=
    if '0' ≤ c ∧ c ≤ '9' then some (n - 48)
    else if 'a' ≤ c ∧ c ≤ 'f' then some (n - 87)
    else if 'A' ≤ c ∧ c ≤ 'F' then some (n - 55)
    else none
  v.filter (· < base)

/-- The number that extends `seen` by the given digits. -/
def extendDigits (base seen : Nat) : List Char → Option Nat
  | [] => some seen
  | c :: cs => (digitValue? base c).bind fun v => extendDigits base (seen * base + v) cs

/-- **The number a non-empty run of digits spells**; `none` when a character is no digit. -/
def ofDigits (base : Nat) (cs : List Char) : Option Nat :=
  if cs.isEmpty then none else extendDigits base 0 cs

/-- Is the character one of `0` to `9`? -/
def isDigit (c : Char) : Bool := '0' ≤ c && c ≤ '9'

end Rollout.Text
