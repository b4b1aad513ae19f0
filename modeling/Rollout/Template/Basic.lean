import Rollout.Value

/-!
# Template/Basic — texts with holes

A `Template` is a list of parts: fixed text, values to be filled in, parts that depend on a
condition, and parts repeated for every item of a list.  What goes into the holes is spelled by
an `Expr` over the fields of a record.
-/

namespace Rollout

/-- **What a template asks of its data.** -/
inductive Expr where
  /-- A constant. -/
  | const (v : Value)
  /-- A variable, and the fields that lead from it to the value. -/
  | path (root : String) (fields : List String)
  /-- The value, changed by a filter of that name. -/
  | filtered (e : Expr) (filter : String)
  | negation (e : Expr)
  | conjunction (a b : Expr)
  | disjunction (a b : Expr)
  deriving Inhabited, Repr

/-- **One part of a template.** -/
inductive Part where
  | text (s : String)
  | value (e : Expr)
  /-- The first parts if the condition holds, the others if not. -/
  | choice (condition : Expr) (yes no : List Part)
  /-- The parts once for every item of the list, each under that name. -/
  | repetition (item : String) (items : Expr) (body : List Part)
  deriving Inhabited, Repr

/-- A template is the list of its parts. -/
abbrev Template := List Part

namespace Part

/-- The value at the end of a path. -/
def of (root : String) (fields : List String) : Part := .value (.path root fields)

end Part

end Rollout
