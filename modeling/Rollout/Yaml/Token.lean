import Rollout.Text.Decimal

/-!
# Yaml/Token — what a YAML text is made of

A `Token` is one indicator, name or scalar of a text.  Where indentation opens or closes a block,
a token stands for it too, so that the sequence of tokens needs no columns to be understood.  The
character classes of the format stand here as well.
-/

namespace Rollout.Yaml

/-- How a scalar is written. -/
inductive ScalarStyle where
  | plain
  | singleQuoted
  | doubleQuoted
  | literal
  | folded
  deriving DecidableEq, Repr, Inhabited

/-- **One token of a text.** -/
inductive Token where
  | versionDirective (major minor : Nat)
  | tagDirective (handle stem : String)
  | documentStart
  | documentEnd
  | streamEnd
  | blockSequenceStart
  | blockMappingStart
  | blockEnd
  | flowSequenceStart
  | flowSequenceEnd
  | flowMappingStart
  | flowMappingEnd
  | blockEntry
  | flowEntry
  | key
  | value
  | alias (name : String)
  | anchor (name : String)
  | tag (handle suffix : String)
  | scalar (style : ScalarStyle) (text : String)
  deriving DecidableEq, Repr, Inhabited

/-! ## Character classes -/

/-- May the character occur in a text at all? -/
def isAllowed (c : Char) : Bool :=
  let n := c.toNat
  n == 0x09 || n == 0x0A || n == 0x0D || (0x20 ≤ n && n ≤ 0x7E) || n == 0x85
    || (0xA0 ≤ n && n ≤ 0xD7FF) || (0xE000 ≤ n && n ≤ 0xFFFD) || 0x10000 ≤ n

/-- Does the character end a line? -/
def isBreak (c : Char) : Bool :=
  let n := c.toNat
  n == 0x0A || n == 0x0D || n == 0x85 || n == 0x2028 || n == 0x2029

/-- Does the character separate words on a line? -/
def isGap (c : Char) : Bool := c == ' ' || c == '\t'

/-- Does the text end here, or a word of it? -/
def endsWord : List Char → Bool
  | [] => true
  | c :: _ => isGap c || isBreak c

/-- May the character stand in the name of an anchor or a directive? -/
def isWord (c : Char) : Bool := c.isAlphanum || c == '_' || c == '-'

/-- May the character stand in the suffix of a tag? -/
def isTagChar (c : Char) : Bool := isWord c || ";/?:@&=+$.%!~*'()".toList.contains c

/-- The characters that open, close or separate flow collections. -/
def isFlowIndicator (c : Char) : Bool := ",[]\x7b\x7d".toList.contains c

/-- Does a marker of a document's start or end stand at the front? -/
def startsMarker : List Char → Bool
  | a :: b :: c :: rest => a == b && b == c && (a == '-' || a == '.') && endsWord rest
  | _ => false

end Rollout.Yaml
