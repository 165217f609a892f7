import DemoScaffold.Repetition
import DemoScaffold.Template.Kind

/-!
# Templates

A template is a text pattern for one kind of file. A template set is an ordered list of templates
with at most one of each kind.
-/

namespace DemoScaffold

/-- A text pattern for one kind of file. -/
structure Template where
  kind : TemplateKind
  body : String
  suffix : String
deriving DecidableEq, Repr, Inhabited

/-- A template whose files have the suffix of their kind. -/
def Template.ofBody (kind : TemplateKind) (body : String) : Template :=
  ⟨kind, body, kind.defaultSuffix⟩

/-- Templates in the order in which files are planned and written, at most one of each kind. -/
structure TemplateSet where
  templates : List Template
  distinctKinds : (templates.map Template.kind).Nodup

namespace TemplateSet

/-- The set of the given templates; otherwise the first kind that repeats an earlier one. -/
def ofList (templates : List Template) : Except TemplateKind TemplateSet :=
  match h : firstRepeat? (templates.map Template.kind) with
  | some kind => .error kind
  | none => .ok ⟨templates, firstRepeat?_eq_none_iff.1 h⟩

def get? (set : TemplateSet) (kind : TemplateKind) : Option Template :=
  set.templates.find? (·.kind = kind)

def size (set : TemplateSet) : Nat :=
  set.templates.length

def isEmpty (set : TemplateSet) : Bool :=
  set.templates.isEmpty

end TemplateSet

end DemoScaffold
