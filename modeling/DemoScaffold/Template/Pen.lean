import DemoScaffold.Template.Layout

/-!
# Pens

Where the blanks of partials go. A text that is written inside a partial gets the partial's blanks
behind each of its line feeds but one at its end; the blanks after that one are left to the next
text, which may come from elsewhere. A pen tells what the next text needs to know.
-/

namespace DemoScaffold.Template

/-- What earlier texts mean for the next one: whether a text has been written at all, whether the
last one ended a line, and whether the next one has to start with the blanks. -/
structure Pen where
  wrote : Bool
  endedLine : Bool
  owesBlanks : Bool
deriving DecidableEq, Repr, Inhabited

/-- A text with blanks behind each of its line feeds but one at its end. -/
def indentLines (blanks : List Char) : List Char → List Char
  | [] => []
  | c :: rest =>
    if c = '\n' ∧ !rest.isEmpty then c :: (blanks ++ indentLines blanks rest)
    else c :: indentLines blanks rest

namespace Pen

def fresh : Pen := ⟨false, false, false⟩

/-- A text as it is written with the given blanks, and the pen behind it. A text that starts with
the end of a line does not get the blanks that are due. -/
def put (blanks : List Char) (pen : Pen) : List Char → List Char × Pen
  | [] => ([], pen)
  | c :: rest =>
    let ended := (c :: rest).getLast?.any isLineEnd
    let due := if pen.owesBlanks && !isLineEnd c then blanks else []
    (due ++ indentLines blanks (c :: rest), ⟨true, ended, ended⟩)

/-- The pen at the start of what a tag writes. -/
def enter (owesBlanks : Bool) (pen : Pen) : Pen :=
  ⟨false, pen.endedLine, owesBlanks⟩

/-- The pen behind what a tag has written, given the pen before the tag. A tag without a text leaves
it as it was. -/
def leave (before after : Pen) : Pen :=
  if after.wrote then ⟨true, after.endedLine, after.endedLine⟩ else before

end Pen

end DemoScaffold.Template
