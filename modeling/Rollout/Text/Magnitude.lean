import Rollout.Text.Decimal

/-!
# Text/Magnitude — which decimal numbers fit a double

A decimal number `m · 10ᵉ` rounds to a finite double exactly when it lies below the midpoint of
the largest finite double and the next power of two (`overflowThreshold`).
-/

namespace Rollout.Text

/-- The least number that rounds to infinity: half a unit above the largest finite double. -/
def overflowThreshold : Nat := Nat.pow 2 1024 - Nat.pow 2 970

/-- **Does `m · 10ᵉ` round to a finite double?**  Large exponents are decided by their size, so
that no power of ten beyond the range is ever computed. -/
def fitsDouble (m : Nat) : Int → Bool
  | .ofNat e => m == 0 || (e ≤ 400 && m * Nat.pow 10 e < overflowThreshold)
  | .negSucc k =>
    let shift := k + 1
    (digits m).length ≤ shift + 308 || m < overflowThreshold * Nat.pow 10 shift

/-- The parts of a decimal number: whole digits, digits after the point, exponent. -/
structure Decimal where
  whole : List Char
  fraction : List Char
  exponent : Int

/-- Does the number the parts spell round to a finite double? -/
def Decimal.isFinite (d : Decimal) : Bool :=
  let m := (ofDigits 10 (d.whole ++ d.fraction)).getD 0
  fitsDouble m (d.exponent - d.fraction.length)

/-- Read an exponent: a mark, a sign that may be absent, at least one digit.  Without the mark the
exponent is zero and nothing is taken. -/
def readExponent : List Char → Option (Int × List Char)
  | c :: cs =>
    if c = 'e' ∨ c = 'E' then
      let (negative, cs) := match cs with
        | '-' :: r => (true, r)
        | '+' :: r => (false, r)
        | r => (false, r)
      let ds := cs.takeWhile isDigit
      (ofDigits 10 ds).map fun n =>
        (if negative then -(n : Int) else (n : Int), cs.drop ds.length)
    else some (0, c :: cs)
  | [] => some (0, [])

end Rollout.Text
