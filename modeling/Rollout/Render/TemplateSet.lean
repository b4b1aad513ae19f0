import Rollout.Render.Error
import Rollout.Render.Layout
import Rollout.System.Files
import Rollout.Template.Engine

/-!
# Render/TemplateSet — templates by name

A `TemplateSet` holds parsed templates in the order of their registration.  Registering a name
again replaces its template in place; a text that is no template leaves the set as it was.
-/

namespace Rollout

/-- What is noted of a template. -/
structure TemplateInfo where
  name : String
  /-- The file it is rendered into; none if it is rendered once for each of several items. -/
  output : Option String := none
  /-- So many earlier versions of the file are kept. -/
  maxOldFiles : Nat := 0
  /-- The size of text to expect. -/
  sizeHint : Nat := 0
  deriving DecidableEq, Repr, Inhabited

/-- A registered template. -/
structure Registered (τ : Type := Template) where
  info : TemplateInfo
  template : τ
  deriving Inhabited, Repr

/-- **Templates by name.** -/
abbrev TemplateSet (τ : Type := Template) := List (Registered τ)

namespace TemplateSet

variable {τ : Type}

/-- What is noted of the template of a name. -/
def find (s : TemplateSet τ) (name : String) : Option (Registered τ) :=
  List.find? (fun r => r.info.name == name) s

/-- Put a template into the set, in the place of one of its name. -/
def insert (r : Registered τ) : TemplateSet τ → TemplateSet τ
  | [] => [r]
  | q :: rest => if q.info.name == r.info.name then r :: rest else q :: insert r rest

/-- The templates with their names. -/
def named (s : TemplateSet τ) : List (String × τ) := s.map fun r => (r.info.name, r.template)

variable [TemplateEngine τ]

/-- Parse a text and register it. -/
def register (info : TemplateInfo) (text : String) (s : TemplateSet τ) :
    Except RenderError (TemplateSet τ) :=
  match TemplateEngine.parse? s.named text with
  | some template => .ok (s.insert ⟨info, template⟩)
  | none => .error (.parse info.name "not a template")

variable {m : Type → Type} [Monad m] [FileSystem m]

/-- **Register a template from its source**: the built-in one, or the text of a file. -/
def add (info : TemplateInfo) (builtin : τ) (source : TemplateSource) (s : TemplateSet τ) :
    m (Except RenderError (TemplateSet τ)) :=
  match source with
  | .embedded => pure (.ok (s.insert ⟨info, builtin⟩))
  | .file path => do
    match ← FileSystem.readText path with
    | .error e => pure (.error (.io path e))
    | .ok text => pure (s.register info text)

/-- **Fill the template of a name.** -/
def render (s : TemplateSet τ) (name : String) (data : Value) : Except RenderError String :=
  match s.find name with
  | none => .error (.unknownTemplate name)
  | some r => (TemplateEngine.evaluate s.named r.template data).mapError (.evaluation name)

end TemplateSet

end Rollout
