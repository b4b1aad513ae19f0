import Rollout.Text.Decimal

/-!
# Text/Duration — microseconds as milliseconds

`milliseconds` writes three places, `shortMilliseconds` no zero at the end that says nothing.
-/

namespace Rollout.Text

/-- A number of microseconds in milliseconds, with three places. -/
def milliseconds (micros : Nat) : String :=
  decimal (micros / 1000) ++ "." ++ padded 3 (micros % 1000)

/-- The places of a number without zeros at the end, but at least one place. -/
def shortPlaces (places : List Char) : List Char :=
  match (places.reverse.dropWhile (· == '0')).reverse with
  | [] => ['0']
  | cs => cs

/-- **A number of microseconds in milliseconds, as short as it can be**, but with a point. -/
def shortMilliseconds (micros : Nat) : String :=
  decimal (micros / 1000) ++ "."
    ++ String.ofList (shortPlaces (padded 3 (micros % 1000)).toList)

end Rollout.Text
