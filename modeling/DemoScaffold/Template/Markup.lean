import DemoScaffold.Template.Layout

/-!
# Markup

The tree that a template body stands for: literal texts, values, helpers, blocks, directives and
partials. It is built from the items from right to left, so that every piece is put in front of what
follows it. A block ends where its own name is closed; a directive and a partial also where no name
is, and only there if the partial is named by a value.
-/

namespace DemoScaffold.Template

/-- What a template says, from some point on. A block tells whether its start stands alone on its
line and so owns it. -/
inductive Markup where
  | done
  | text (s : List Char) (rest : Markup)
  | value (a : Argument) (rest : Markup)
  | call (name : String) (arguments : Arguments) (rest : Markup)
  | block (head : Head) (alone : Bool) (body : Markup) (hasInverse : Bool) (inverse rest : Markup)
  | directive (head : Head) (hasBody : Bool) (body rest : Markup)
  | insert (target : Argument) (arguments : Arguments) (indent : Indent) (hasBody : Bool)
      (body rest : Markup)
deriving Repr, Inhabited

namespace Markup

/-- A block whose end has been read: its name, its second part if that has been read too, and what
follows the block. -/
structure Open where
  name : String
  inverse : Option Markup
  rest : Markup
deriving Repr, Inhabited

/-- A block in front of what follows it. -/
def ofBlock (head : Head) (alone : Bool) (body : Markup) (inverse : Option Markup)
    (rest : Markup) : Markup :=
  .block head alone body inverse.isSome (inverse.getD .done) rest

/-- A tag in front of what follows it; `blocks` are those whose ends have been read, the innermost
first. None if the tag does not fit them. -/
def addTag (content : TagContent) (indent : Indent) (m : Markup) (blocks : List Open) :
    Option (Markup × List Open) :=
  match content, blocks with
  | .comment, _ => some (m, blocks)
  | .value a, _ => some (.value a m, blocks)
  | .call name arguments, _ => some (.call name arguments m, blocks)
  | .directive head, _ => some (.directive head false .done m, blocks)
  | .insert target arguments, _ => some (.insert target arguments indent false .done m, blocks)
  | .close name, _ => some (.done, ⟨name, none, m⟩ :: blocks)
  | .otherwise, ⟨name, none, rest⟩ :: outer => some (.done, ⟨name, some m, rest⟩ :: outer)
  | .otherwiseOpen head, ⟨name, inverse, rest⟩ :: outer =>
    some (.done, ⟨name, some (ofBlock head indent.owned m inverse .done), rest⟩ :: outer)
  | .open head, ⟨closed, inverse, rest⟩ :: outer =>
    if head.name = closed then some (ofBlock head indent.owned m inverse rest, outer) else none
  | .openDirective head, ⟨closed, none, rest⟩ :: outer =>
    if closed = "" ∨ head.name = closed then some (.directive head true m rest, outer) else none
  | .openInsert target arguments, ⟨closed, none, rest⟩ :: outer =>
    if closed = "" ∨ target.plainName? = some closed then
      some (.insert target arguments ⟨[], indent.owned⟩ true m rest, outer)
    else none
  | _, _ => none

/-- The markup of the items, up to the end of the innermost of the blocks whose starts are missing;
none if the tags do not nest. -/
def nest : List Item → Option (Markup × List Open)
  | [] => some (.done, [])
  | .text s :: items => (nest items).map fun (m, blocks) => (.text s m, blocks)
  | .tag content indent :: items =>
    (nest items).bind fun (m, blocks) => addTag content indent m blocks

/-- The markup of a template body; none if a tag is malformed or the tags do not nest. -/
def parse (body : List Char) : Option Markup := do
  let ps ← pieces body
  match ← nest (items ps) with
  | (m, []) => return m
  | _ => none

end Markup

end DemoScaffold.Template
