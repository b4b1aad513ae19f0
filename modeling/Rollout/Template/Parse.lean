import Rollout.Template.Basic
import Rollout.Text.Blank
import Rollout.Text.Decimal

/-!
# Template/Parse — templates as text

A template is written as text with values in double braces, commands in braces with percent
signs, and comments in braces with hashes.  A dash inside a brace takes the blanks of the text next
to it away.  `Template.parse?` cuts a text into pieces and nests them.

The pieces are values with filters, loops and conditions.  A text that asks for more, such as the
time of day, a number by chance or a name of its own, spells no template here; what holds with any
engine is said of a `TemplateEngine`.
-/

namespace Rollout.Template

/-! ## Words inside braces -/

/-- A word between the braces of a hole. -/
inductive Word where
  | name (s : String)
  | number (n : Nat)
  | quoted (s : String)
  | symbol (c : Char)
  deriving DecidableEq, Repr, Inhabited

/-- May a name start with the character? -/
def startsName (c : Char) : Bool := c.isAlpha || c == '_'

/-- May a name go on with the character? -/
def inName (c : Char) : Bool := c.isAlphanum || c == '_'

/-- Does a blank separate words here? -/
def isSpace (c : Char) : Bool := c == ' ' || c == '\t' || c == '\r' || c == '\n'

/-- **The words up to a closing mark of two characters**, whether a dash stands before it, and
what follows. -/
def readWords (close : List Char) : (fuel : Nat) → List Char →
    Option (List Word × Bool × List Char)
  | 0, _ => none
  | fuel + 1, cs =>
    let cs := cs.dropWhile isSpace
    match ('-' :: close).isPrefixOf? cs, close.isPrefixOf? cs, cs with
    | some rest, _, _ => some ([], true, rest)
    | none, some rest, _ => some ([], false, rest)
    | none, none, [] => none
    | none, none, c :: rest =>
      let (word, rest) : Option Word × List Char :=
        if startsName c then
          (some (.name (String.ofList (c :: rest.takeWhile inName))), rest.dropWhile inName)
        else if Text.isDigit c then
          let ds := c :: rest.takeWhile Text.isDigit
          ((Text.ofDigits 10 ds).map .number, rest.dropWhile Text.isDigit)
        else if c == '"' || c == '\'' then
          let inside := rest.takeWhile (· != c)
          let behind := rest.drop inside.length
          (if behind.isEmpty then none else some (.quoted (String.ofList inside)), behind.drop 1)
        else if ".|()".toList.contains c then (some (.symbol c), rest)
        else (none, rest)
      match word with
      | none => none
      | some w => (readWords close fuel rest).map fun r => (w :: r.1, r.2)

/-! ## Pieces of the text -/

/-- A piece of a template's text; the flags say whether a dash stands at its front or end. -/
inductive Piece where
  | text (cs : List Char)
  | value (front back : Bool) (words : List Word)
  | command (front back : Bool) (words : List Word)
  | comment (front back : Bool)
  deriving Repr, Inhabited

/-- The text up to the next piece that is none, and what follows. -/
def readText : List Char → List Char × List Char
  | '{' :: '{' :: rest => ([], '{' :: '{' :: rest)
  | '{' :: '%' :: rest => ([], '{' :: '%' :: rest)
  | '{' :: '#' :: rest => ([], '{' :: '#' :: rest)
  | c :: rest =>
    let r := readText rest
    (c :: r.1, r.2)
  | [] => ([], [])

/-- Take a dash off the front. -/
def takeDash : List Char → Bool × List Char
  | '-' :: rest => (true, rest)
  | cs => (false, cs)

/-- What follows a comment, and whether a dash stands at its end. -/
def skipComment : List Char → Option (Bool × List Char)
  | '-' :: '#' :: '}' :: rest => some (true, rest)
  | '#' :: '}' :: rest => some (false, rest)
  | _ :: rest => skipComment rest
  | [] => none

/-- **The pieces of a text.** -/
def readPieces : (fuel : Nat) → List Char → Option (List Piece)
  | 0, _ => none
  | _ + 1, [] => some []
  | fuel + 1, '{' :: '{' :: rest => do
    let (front, rest) := takeDash rest
    let (words, back, rest) ← readWords ['}', '}'] (rest.length + 1) rest
    (readPieces fuel rest).map (.value front back words :: ·)
  | fuel + 1, '{' :: '%' :: rest => do
    let (front, rest) := takeDash rest
    let (words, back, rest) ← readWords ['%', '}'] (rest.length + 1) rest
    (readPieces fuel rest).map (.command front back words :: ·)
  | fuel + 1, '{' :: '#' :: rest => do
    let (front, rest) := takeDash rest
    let (back, rest) ← skipComment rest
    (readPieces fuel rest).map (.comment front back :: ·)
  | fuel + 1, cs => do
    let (text, rest) := readText cs
    (readPieces fuel rest).map (.text text :: ·)

/-- Does the first piece take blanks away before it? -/
def trimsBefore : List Piece → Bool
  | .value front _ _ :: _ | .command front _ _ :: _ | .comment front _ :: _ => front
  | _ => false

/-- **Take away the blanks that dashes ask for**, and the comments.  `after` tells whether the
piece before asks for it. -/
def trimPieces : (after : Bool) → List Piece → List Piece
  | _, [] => []
  | after, .text cs :: rest =>
    let cs := if after then cs.dropWhile Text.isBlank else cs
    let cs := if trimsBefore rest then Text.trimEndList cs else cs
    .text cs :: trimPieces false rest
  | _, .value front back words :: rest => .value front back words :: trimPieces back rest
  | _, .command front back words :: rest => .command front back words :: trimPieces back rest
  | _, .comment _ back :: rest => trimPieces back rest

/-! ## Expressions -/

/-- The fields behind a variable. -/
def readFields : List Word → Option (List String × List Word)
  | .symbol '.' :: .name s :: rest => (readFields rest).map fun r => (s :: r.1, r.2)
  | .symbol '.' :: .number n :: rest =>
    (readFields rest).map fun r => (Text.decimal n :: r.1, r.2)
  | .symbol '.' :: _ => none
  | rest => some ([], rest)

/-- The filters behind a value. -/
def readFilters (e : Expr) : List Word → Option (Expr × List Word)
  | .symbol '|' :: .name s :: rest => readFilters (.filtered e s) rest
  | .symbol '|' :: _ => none
  | rest => some (e, rest)

/-- A constant or a path. -/
def readOperand : List Word → Option (Expr × List Word)
  | .name "true" :: rest => some (.const (.bool true), rest)
  | .name "false" :: rest => some (.const (.bool false), rest)
  | .number n :: rest => some (.const (.nat n), rest)
  | .quoted s :: rest => some (.const (.text s), rest)
  | .name s :: rest =>
    if ["not", "and", "or", "in"].contains s then none
    else (readFields rest).map fun r => (.path s r.1, r.2)
  | _ => none

mutual

/-- An expression in parentheses, negated, or an operand with its filters. -/
def readTerm : (fuel : Nat) → List Word → Option (Expr × List Word)
  | 0, _ => none
  | fuel + 1, .name "not" :: rest =>
    (readTerm fuel rest).map fun r => (.negation r.1, r.2)
  | fuel + 1, .symbol '(' :: rest => do
    let (e, rest) ← readExpr fuel rest
    match rest with
    | .symbol ')' :: rest => some (e, rest)
    | _ => none
  | _ + 1, ws => do
    let (e, rest) ← readOperand ws
    readFilters e rest

/-- Terms that all have to hold. -/
def readConjunction : (fuel : Nat) → List Word → Option (Expr × List Word)
  | 0, _ => none
  | fuel + 1, ws => do
    let (a, rest) ← readTerm fuel ws
    match rest with
    | .name "and" :: rest => (readConjunction fuel rest).map fun r => (.conjunction a r.1, r.2)
    | rest => some (a, rest)

/-- **An expression**: of its parts joined by `or`, one has to hold. -/
def readExpr : (fuel : Nat) → List Word → Option (Expr × List Word)
  | 0, _ => none
  | fuel + 1, ws => do
    let (a, rest) ← readConjunction fuel ws
    match rest with
    | .name "or" :: rest => (readExpr fuel rest).map fun r => (.disjunction a r.1, r.2)
    | rest => some (a, rest)

end

/-- The expression that all of the words spell. -/
def exprOf (ws : List Word) : Option Expr :=
  match readExpr (3 * ws.length + 3) ws with
  | some (e, []) => some e
  | _ => none

/-! ## Nesting -/

/-- What a command asks for. -/
inductive Command where
  | choose (condition : Expr)
  | orChoose (condition : Expr)
  | otherwise
  | each (item : String) (items : Expr)
  | endChoice
  | endEach

/-- The command that words spell. -/
def commandOf : List Word → Option Command
  | .name "if" :: ws => (exprOf ws).map .choose
  | .name "elif" :: ws => (exprOf ws).map .orChoose
  | [.name "else"] => some .otherwise
  | .name "for" :: .name x :: .name "in" :: ws => (exprOf ws).map (.each x)
  | [.name "endif"] => some .endChoice
  | [.name "endfor"] => some .endEach
  | _ => none

/-- Parts, the command that ends them if there is one, and the pieces behind it. -/
structure Nested where
  parts : List Part
  ending : Option Command
  rest : List Piece

mutual

/-- **The parts up to a command that is not their own.** -/
def nest : (fuel : Nat) → List Piece → Option Nested
  | 0, _ => none
  | _ + 1, [] => some ⟨[], none, []⟩
  | fuel + 1, .text cs :: rest => do
    let n ← nest fuel rest
    some { n with parts := .text (String.ofList cs) :: n.parts }
  | fuel + 1, .comment .. :: rest => nest fuel rest
  | fuel + 1, .value _ _ ws :: rest => do
    let e ← exprOf ws
    let n ← nest fuel rest
    some { n with parts := .value e :: n.parts }
  | fuel + 1, .command _ _ ws :: rest => do
    match ← commandOf ws with
    | .choose condition =>
      let (part, rest) ← nestChoice fuel condition rest
      let n ← nest fuel rest
      some { n with parts := part :: n.parts }
    | .each x items =>
      let body ← nest fuel rest
      match body.ending with
      | some .endEach =>
        let n ← nest fuel body.rest
        some { n with parts := .repetition x items body.parts :: n.parts }
      | _ => none
    | ending => some ⟨[], some ending, rest⟩

/-- A choice from behind its condition to its end. -/
def nestChoice : (fuel : Nat) → Expr → List Piece → Option (Part × List Piece)
  | 0, _, _ => none
  | fuel + 1, condition, pieces => do
    let yes ← nest fuel pieces
    match yes.ending with
    | some .endChoice => some (.choice condition yes.parts [], yes.rest)
    | some .otherwise =>
      let no ← nest fuel yes.rest
      match no.ending with
      | some .endChoice => some (.choice condition yes.parts no.parts, no.rest)
      | _ => none
    | some (.orChoose other) =>
      let (no, rest) ← nestChoice fuel other yes.rest
      some (.choice condition yes.parts [no], rest)
    | _ => none

end

/-- **The template that a text spells.** -/
def parse? (text : String) : Option Template := do
  let cs := text.toList
  let pieces ← readPieces (cs.length + 1) cs
  let n ← nest (2 * pieces.length + 2) (trimPieces false pieces)
  match n.ending with
  | none => some n.parts
  | some _ => none

end Rollout.Template
