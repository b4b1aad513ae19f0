/-!
# Text/Lines — the lines of a text

`lines` cuts a text behind every line feed, every carriage return, and every pair of the two.  The
endings stay with their lines, so that the lines side by side are the text again.  `splitAt` cuts at
one character, which is taken out.
-/

namespace Rollout.Text

/-- The lines of characters, each with its ending; `seen` holds the line so far, reversed. -/
def linesFrom : (seen : List Char) → List Char → List (List Char)
  | [], [] => []
  | seen, [] => [seen.reverse]
  | seen, '\r' :: '\n' :: cs => ('\n' :: '\r' :: seen).reverse :: linesFrom [] cs
  | seen, c :: cs =>
    if c == '\n' || c == '\r' then (c :: seen).reverse :: linesFrom [] cs
    else linesFrom (c :: seen) cs

/-- **The lines of a text, each with its ending.** -/
def lines (s : String) : List String := (linesFrom [] s.toList).map String.ofList

/-- Does a line have an ending? -/
def isEnded (line : String) : Bool :=
  match line.toList.getLast? with
  | some c => c == '\n' || c == '\r'
  | none => false

/-- **The pieces between the occurrences of a character**, one more than there are of them. -/
def splitAt (sep : Char) : List Char → List (List Char)
  | [] => [[]]
  | c :: cs =>
    if c = sep then [] :: splitAt sep cs
    else
      match splitAt sep cs with
      | p :: ps => (c :: p) :: ps
      | [] => [[c]]

end Rollout.Text
