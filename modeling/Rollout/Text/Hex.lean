import Rollout.Text.Decimal

/-!
# Text/Hex — octets as pairs of hexadecimal digits
-/

namespace Rollout.Text

/-- The two digits of an octet, in lower case. -/
def octetDigits (b : UInt8) : List Char :=
  [Nat.digitChar (b.toNat / 16), Nat.digitChar (b.toNat % 16)]

/-- Octets as pairs of digits. -/
def hex (bytes : ByteArray) : String := String.ofList (bytes.toList.flatMap octetDigits)

/-- The octets that pairs of digits spell; a pair that is no number spells zero. -/
def ofHexList : List Char → List UInt8
  | a :: b :: rest => UInt8.ofNat ((ofDigits 16 [a, b]).getD 0) :: ofHexList rest
  | _ => []

/-- The octets that a text of digits spells. -/
def ofHex (s : String) : ByteArray := ⟨(ofHexList s.toList).toArray⟩

end Rollout.Text
