/-!
# Value — trees of plain data

`Value` is what a desired state is written as, what a template reads and what the control socket
carries.  A record keeps its fields in order and may hold a name twice; `Value.canonical` sorts
the fields by name and keeps the last of equal names, all the way down.
-/

namespace Rollout

/-- A tree of plain data. -/
inductive Value where
  | null
  | bool (b : Bool)
  | int (n : Int)
  /-- A number that is no integer, as it was spelled. -/
  | real (literal : String)
  | text (s : String)
  | list (items : List Value)
  | record (fields : List (String × Value))
  deriving Inhabited, Repr

namespace Value

/-- A natural number as a value. -/
def nat (n : Nat) : Value := .int n

/-- The field that an optional value makes, or no field. -/
def optionalField (name : String) (v : Option Value) : List (String × Value) :=
  match v with
  | some v => [(name, v)]
  | none => []

/-- An optional value, `null` when absent. -/
def ofOption (v : Option Value) : Value := v.getD .null

/-- A list of texts as a value. -/
def texts (ss : List String) : Value := .list (ss.map .text)

/-- **The field of a record by its name**, the first one if there are several. -/
def field? (name : String) : Value → Option Value
  | .record fields => fields.lookup name
  | _ => none

/-- The field of a record, `null` when there is none. -/
def field (name : String) (v : Value) : Value := (v.field? name).getD .null

/-- The text a value holds, if it is one. -/
def text? : Value → Option String
  | .text s => some s
  | _ => none

/-- The items a value holds, if it is a list. -/
def items? : Value → Option (List Value)
  | .list items => some items
  | _ => none

/-- The truth a value holds, if it is one. -/
def bool? : Value → Option Bool
  | .bool b => some b
  | _ => none

/-- The natural number a value holds, if it is one. -/
def nat? : Value → Option Nat
  | .int (.ofNat n) => some n
  | _ => none

/-- Put a field where its name belongs among fields sorted by name; a field of that name is
replaced. -/
def insertField (name : String) (v : Value) : List (String × Value) → List (String × Value)
  | [] => [(name, v)]
  | (n, w) :: rest =>
    if name < n then (name, v) :: (n, w) :: rest
    else if name = n then (name, v) :: rest
    else (n, w) :: insertField name v rest

mutual

/-- **Every record sorted by field name, the last of equal names kept.** -/
def canonical : Value → Value
  | .list items => .list (canonicalItems items)
  | .record fields => .record (canonicalFields fields [])
  | v => v

/-- The items of a list, each canonical. -/
def canonicalItems : List Value → List Value
  | [] => []
  | v :: vs => canonical v :: canonicalItems vs

/-- The fields of a record, entered one after the other into those already sorted. -/
def canonicalFields : List (String × Value) → List (String × Value) → List (String × Value)
  | [], sorted => sorted
  | (n, v) :: rest, sorted => canonicalFields rest (insertField n (canonical v) sorted)

end

end Value

end Rollout
