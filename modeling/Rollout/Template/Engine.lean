import Rollout.Template.Evaluate
import Rollout.Template.Parse

/-!
# Template/Engine — what reads and fills templates

A `TemplateEngine` reads the texts of templates, and fills them from records.  The renderer works with any
engine, also with one whose templates include each other; its texts may be others at another time, which is
another engine then.  The engine of this library reads templates as lists of parts.
-/

namespace Rollout

/-- **An engine for templates** of some type.  It sees those that are registered, with their names. -/
class TemplateEngine (τ : Type) where
  /-- The template that a text spells, beside those that are registered. -/
  parse? (registered : List (String × τ)) (text : String) : Option τ
  /-- A template that is built in. -/
  ofParts : Template → τ
  /-- Fill one of the registered templates from a record. -/
  evaluate (registered : List (String × τ)) (template : τ) (data : Value) : Except String String

instance : TemplateEngine Template where
  parse? _ := Template.parse?
  ofParts := id
  evaluate _ := Template.evaluate

end Rollout
