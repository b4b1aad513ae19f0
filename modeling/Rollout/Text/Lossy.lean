/-!
# Text/Lossy — octets as text, whatever they hold

`lossy` decodes UTF-8 and puts one replacement character wherever the octets stop being UTF-8: for
each octet that begins no character, and for each longest beginning of a character that is cut
off.
-/

namespace Rollout.Text

/-- **What a first octet promises**: how many octets follow, the bounds of the next one, and the
bits it contributes itself. -/
def leadOctet (b : UInt8) : Option (Nat × UInt8 × UInt8 × Nat) :=
  let n := b.toNat
  if n < 0x80 then some (0, 0, 0, n)
  else if 0xC2 ≤ n ∧ n ≤ 0xDF then some (1, 0x80, 0xBF, n - 0xC0)
  else if n = 0xE0 then some (2, 0xA0, 0xBF, 0)
  else if n = 0xED then some (2, 0x80, 0x9F, 13)
  else if 0xE1 ≤ n ∧ n ≤ 0xEF then some (2, 0x80, 0xBF, n - 0xE0)
  else if n = 0xF0 then some (3, 0x90, 0xBF, 0)
  else if 0xF1 ≤ n ∧ n ≤ 0xF3 then some (3, 0x80, 0xBF, n - 0xF0)
  else if n = 0xF4 then some (3, 0x80, 0x8F, 4)
  else none

/-- Take the octets that follow a first one, as long as they fit; the number they spell, or `none`
if the character is cut off. -/
def followOctets : (missing : Nat) → (low high : UInt8) → (seen : Nat) → List UInt8 →
    Option Nat × List UInt8
  | 0, _, _, seen, rest => (some seen, rest)
  | _ + 1, _, _, _, [] => (none, [])
  | missing + 1, low, high, seen, b :: rest =>
    if low ≤ b ∧ b ≤ high then
      followOctets missing 0x80 0xBF (seen * 64 + (b.toNat - 0x80)) rest
    else (none, b :: rest)

theorem length_followOctets_le (missing : Nat) (low high : UInt8) (seen : Nat)
    (bytes : List UInt8) :
    (followOctets missing low high seen bytes).2.length ≤ bytes.length := by
  fun_induction followOctets missing low high seen bytes <;> simp_all
  omega

/-- What stands for octets that are no text. -/
def replacement : Char := Char.ofNat 0xFFFD

/-- The characters of octets, with replacements. -/
def lossyList : List UInt8 → List Char
  | [] => []
  | b :: rest =>
    match leadOctet b with
    | none => replacement :: lossyList rest
    | some (missing, low, high, seen) =>
      let r := followOctets missing low high seen rest
      (r.1.map Char.ofNat).getD replacement :: lossyList r.2
termination_by bytes => bytes.length
decreasing_by
  · simp
  · exact Nat.lt_succ_of_le (length_followOctets_le missing low high seen rest)

/-- **Octets as text, with a replacement character for whatever is no UTF-8.** -/
def lossy (bytes : ByteArray) : String := String.ofList (lossyList bytes.toList)

end Rollout.Text
