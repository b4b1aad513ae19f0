/-!
# Text/Blank — characters that separate or disturb a token

A name ends up in a map line, a `server` line or a control command, where white space separates
tokens and a control character ends the line.  `isBlank` is the Unicode property `White_Space`,
`isControl` the general category `Cc`; `trim` drops blanks at both ends.
-/

namespace Rollout.Text

/-- **The Unicode property `White_Space`**, all twenty-five characters of it. -/
def isBlank (c : Char) : Bool :=
  let n := c.toNat
  (9 ≤ n && n ≤ 13) || n == 0x20 || n == 0x85 || n == 0xA0 || n == 0x1680
    || (0x2000 ≤ n && n ≤ 0x200A) || n == 0x2028 || n == 0x2029 || n == 0x202F
    || n == 0x205F || n == 0x3000

/-- **The general category `Cc`**: the two blocks of control characters. -/
def isControl (c : Char) : Bool :=
  let n := c.toNat
  n ≤ 0x1F || (0x7F ≤ n && n ≤ 0x9F)

/-- The characters without the blanks at their end. -/
def trimEndList (cs : List Char) : List Char :=
  (cs.reverse.dropWhile isBlank).reverse

/-- The characters without the blanks at either end. -/
def trimList (cs : List Char) : List Char :=
  trimEndList (cs.dropWhile isBlank)

/-- The text without the blanks at its end. -/
def trimEnd (s : String) : String := String.ofList (trimEndList s.toList)

/-- The text without the blanks at either end. -/
def trim (s : String) : String := String.ofList (trimList s.toList)

/-- Does the text consist of blanks only? -/
def isBlankText (s : String) : Bool := s.toList.all isBlank

end Rollout.Text
