import Rollout.Template.Basic
import Rollout.Text.Decimal

/-!
# Template/Evaluate — filling the holes

`Template.evaluate` turns a template and a record into a text.  A value that is not there stops
it, except in a condition, where it counts as false.  Inside a repetition the variable `loop`
tells how often it ran before.
-/

namespace Rollout

/-- The variables in reach, the innermost first. -/
abbrev Scope := List (String × Value)

/-- One step from a value: to a field of a record or an item of a list. -/
def Value.step? (v : Value) (name : String) : Option Value :=
  match v with
  | .record fields => fields.lookup name
  | .list items => (Text.ofDigits 10 name.toList).bind fun i => items[i]?
  | _ => none

/-- Does a value count as true? -/
def Value.isTrue : Value → Bool
  | .null => false
  | .bool b => b
  | .int n => n != 0
  | .real _ => true
  | .text s => !s.isEmpty
  | .list items => !items.isEmpty
  | .record fields => !fields.isEmpty

mutual

/-- **How a value is filled in.** -/
def Value.fill : Value → String
  | .null => ""
  | .bool b => if b then "true" else "false"
  | .int n => Text.signed n
  | .real literal => literal
  | .text s => s
  | .list items => "[" ++ Value.fillItems items ++ "]"
  | .record _ => "[object]"

/-- How items are filled in, with a comma between two of them. -/
def Value.fillItems : List Value → String
  | [] => ""
  | [v] => v.fill
  | v :: w :: rest => v.fill ++ ", " ++ Value.fillItems (w :: rest)

end

/-- The size of a value that has one. -/
def Value.length? : Value → Option Nat
  | .text s => some s.length
  | .list items => some items.length
  | .record fields => some fields.length
  | _ => none

/-- Apply a filter. -/
def applyFilter (filter : String) (v : Value) : Option Value :=
  if filter = "length" then v.length?.map Value.nat else none

namespace Expr

/-- **The value of an expression**; `none` where it is not there. -/
def eval (scope : Scope) : Expr → Option Value
  | .const v => some v
  | .path x fields => (scope.lookup x).bind fun v => fields.foldlM Value.step? v
  | .filtered e filter => (e.eval scope).bind (applyFilter filter)
  | .negation e => some (.bool !((e.eval scope).any Value.isTrue))
  | .conjunction a b =>
    some (.bool ((a.eval scope).any Value.isTrue && (b.eval scope).any Value.isTrue))
  | .disjunction a b =>
    some (.bool ((a.eval scope).any Value.isTrue || (b.eval scope).any Value.isTrue))

/-- Does a condition hold?  A value that is not there does not. -/
def holds (scope : Scope) (e : Expr) : Bool := (e.eval scope).any Value.isTrue

/-- How an expression is spelled in messages. -/
def describe : Expr → String
  | .const v => v.fill
  | .path x fields => ".".intercalate (x :: fields)
  | .filtered e filter => e.describe ++ " | " ++ filter
  | .negation e => "not " ++ e.describe
  | .conjunction a b => a.describe ++ " and " ++ b.describe
  | .disjunction a b => a.describe ++ " or " ++ b.describe

end Expr

/-- The items a value can be repeated for. -/
def Value.repeated? : Value → Option (List Value)
  | .list items => some items
  | .text s => some (s.toList.map fun c => .text (String.singleton c))
  | _ => none

/-- What the variable `loop` holds in the run of a repetition for item `i` of `n`. -/
def loopValue (n i : Nat) : Value :=
  .record [("index", .nat (i + 1)), ("index0", .nat i), ("first", .bool (i == 0)),
    ("last", .bool (i + 1 == n))]

mutual

/-- **The text of a part**, or what stopped it. -/
def Part.evaluate (scope : Scope) : Part → Except String String
  | .text s => .ok s
  | .value e =>
    match e.eval scope with
    | some v => .ok v.fill
    | none => .error ("no value for " ++ e.describe)
  | .choice condition yes no =>
    if condition.holds scope then evaluateParts scope yes else evaluateParts scope no
  | .repetition x items body =>
    match (items.eval scope).bind Value.repeated? with
    | some vs =>
      String.join <$>
        vs.zipIdx.mapM fun (v, i) =>
          evaluateParts (("loop", loopValue vs.length i) :: (x, v) :: scope) body
    | none => .error ("no list at " ++ items.describe)

/-- The texts of parts, one behind the other. -/
def evaluateParts (scope : Scope) : List Part → Except String String
  | [] => .ok ""
  | p :: ps => do
    let s ← p.evaluate scope
    let rest ← evaluateParts scope ps
    .ok (s ++ rest)

end

/-- **Fill a template from a record.** -/
def Template.evaluate (t : Template) (data : Value) : Except String String :=
  match data with
  | .record fields => evaluateParts fields t
  | _ => evaluateParts [] t

end Rollout
