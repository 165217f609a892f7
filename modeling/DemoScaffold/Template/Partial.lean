import DemoScaffold.Template.Helper
import DemoScaffold.Template.Markup
import DemoScaffold.Template.Pen

/-!
# Partials

Markup that is given a name in the template and inserted elsewhere. It keeps its name up to the end
of the innermost block with a value of its own, and hides earlier markup of that name until then. A
partial that is inserted as a block may in turn insert what the block writes, by the name
`@partial-block`.
-/

namespace DemoScaffold.Template

/-- The markup that has names, the last named first. -/
abbrev Partials := List (String × Markup)

/-- Where markup is written: its scope, the blanks that its lines get, and what the block of the
partial that it belongs to has written, if that has one. -/
structure Site where
  scope : Scope
  blanks : List Char
  block? : Option (List Char)
deriving Repr, Inhabited

/-- The partials that have names and the pen, behind what has been written so far. -/
structure Progress where
  partials : Partials
  pen : Pen
deriving Repr, Inhabited

/-- A text, and how things stand behind it. -/
abbrev Written := List Char × Progress

/-! ## Naming -/

/-- The directive that gives a block of markup a name. -/
def Partials.define (ps : Partials) (sc : Scope) (head : Head) (body? : Option Markup) :
    Except RenderFault Partials := do
  let ops ← head.arguments.operands sc
  if head.name ≠ "inline" then throw (.unknownDirective head.name)
  match (← ops.need 0).value, body? with
  | .text name, some m => return (name, m) :: ps
  | .text _, none => throw .missingBlock
  | _, _ => throw .namelessPartial

/-- The name that an argument stands for. -/
def Argument.targetName (sc : Scope) (a : Argument) : Except RenderFault String :=
  match a.name? with
  | some name => .ok name
  | none => do return String.ofList (← a.operand sc).value.written

/-! ## Writing -/

namespace Progress

/-- How things stand before anything has been written. -/
def start : Progress := ⟨[], .fresh⟩

/-- Writes a text with the blanks of its site. -/
def put (p : Progress) (site : Site) (s : List Char) : Written :=
  let (s, pen) := p.pen.put site.blanks s
  (s, { p with pen })

/-- What a tag writes, given whether its text has to start with the blanks. -/
def writeTag (p : Progress) (owesBlanks : Bool)
    (write : Progress → Except RenderFault Written) : Except RenderFault Written := do
  let (s, after) ← write { p with pen := p.pen.enter owesBlanks }
  return (s, { after with pen := p.pen.leave after.pen })

/-- What is written inside a block. The partials named there have no names behind it. -/
def writeInside (p : Progress) (write : Progress → Except RenderFault Written) :
    Except RenderFault Written := do
  let (s, after) ← write p
  return (s, { after with partials := p.partials })

end Progress

/-! ## Inserting -/

/-- The name of what the block of a partial writes. -/
def blockName : String := "@partial-block"

/-- Where a partial is written. It has the value it is given, or the current one, with the named
values as further fields; these are found by their names in all blocks of the partial. -/
def Site.within (site : Site) (blanks : List Char) (ops : Operands) : Site :=
  let value := (ops.positional.head?.map Operand.value).getD site.scope.inner.value
  let fields := ops.named.map fun (name, o) => (name, o.value)
  { scope := site.scope.enterWith (value.withFields fields) fields
    blanks := site.blanks ++ blanks
    block? := none }

/-- What the tag of a partial writes, given what other markup does, and what its block does if it
has one. A partial is looked up before its block is written; a block without a partial is one
itself. -/
def writePartial (inserted : Markup → Site → Progress → Except RenderFault Written)
    (site : Site) (name : String) (ops : Operands) (blanks : List Char)
    (body? : Option (Site → Progress → Except RenderFault Written)) (p : Progress) :
    Except RenderFault Written :=
  if name = blockName then
    match site.block?, body? with
    | some s, _ => .ok (s, p)
    | none, some body => body site p
    | none, none => .error (.unknownPartial name)
  else
    let inner := site.within blanks ops
    p.writeInside fun p =>
      match p.partials.lookup name, body? with
      | some m, some body => do
        let (s, p) ← body { inner with block? := site.block? } p
        inserted m { inner with block? := some s } p
      | some m, none => inserted m inner p
      | none, some body => body inner p
      | none, none => .error (.unknownPartial name)

end DemoScaffold.Template
