import DemoScaffold.Template.Piece
import DemoScaffold.Text.Blank

/-!
# Layout

Which white space around tags belongs to the tags. A tilde removes all white space on its side; the
one at a tag's end also acts on later texts up to the next tag that is not a comment. A tag other
than a value that stands alone on its line takes the whole line with it, the line's end included; a
partial gives the blanks before it to the lines that it inserts.
-/

namespace DemoScaffold.Template

/-- Blanks within a line. -/
def isBlank (c : Char) : Bool :=
  c = ' ' || c = '\t'

/-- The characters that end a line. -/
def isLineEnd (c : Char) : Bool :=
  c = '\n' || c = '\r'

/-- Whether a tag can take its line with it. -/
def TagContent.canStandAlone : TagContent → Bool
  | .value _ => false
  | .call _ _ => false
  | _ => true

/-- The blanks before a tag, and whether they belong to it and not to the text before it. -/
structure Indent where
  blanks : List Char
  owned : Bool
deriving DecidableEq, Repr, Inhabited

/-- A literal text ready to be written, or a tag's contents and the blanks before it. -/
inductive Item where
  | text (s : List Char)
  | tag (content : TagContent) (indent : Indent)
deriving Repr, Inhabited

/-- Whether the pieces after a tag begin with the end of its line. -/
def endsLine : List Piece → Bool
  | [] => true
  | .text s :: _ => (s.dropWhile isBlank).head?.any isLineEnd
  | .verbatim space s :: _ => ((space ++ s).dropWhile isBlank).head?.any isLineEnd
  | .tag _ :: _ => false

/-- Whether only blanks stand between a tag and the start of its line, given the characters before
it, the last one first. -/
def startsLine (behind : List Char) : Bool :=
  match behind.dropWhile isBlank with
  | [] => true
  | c :: _ => isLineEnd c

/-- Whether a tag stands alone on its line. -/
def standsAlone (behind : List Char) (t : Tag) (after : List Piece) : Bool :=
  t.content.canStandAlone && startsLine behind && endsLine after

/-- What earlier tags mean for the text to come: the characters since the last tag, the last one
first and a brace for that tag; whether white space is dropped, and whether the rest of a line
is. -/
structure Margin where
  behind : List Char
  dropsSpace : Bool
  dropsLine : Bool
deriving Repr, Inhabited

/-- The rest of a line without its blanks and its end. -/
def dropLine (s : List Char) : List Char :=
  match s.dropWhile isBlank with
  | '\r' :: '\n' :: rest => rest
  | '\n' :: rest => rest
  | rest => rest

/-- A literal text without what belongs to the tag before it. -/
def Margin.trimStart (m : Margin) (s : List Char) : List Char :=
  if m.dropsSpace then Text.trimStart s
  else if m.dropsLine then dropLine s
  else s

/-- A literal text without what belongs to the tag after it; `behind` are the characters before that
tag. -/
def trimEnd (behind s : List Char) : List Piece → List Char
  | .tag t :: after =>
    let s := if t.trimsBefore then Text.trimEnd s else s
    if standsAlone behind t after then Text.dropEndWhile isBlank s else s
  | _ => s

/-- The margin after a tag. A comment leaves a tilde before it in force. -/
def Margin.after (m : Margin) (t : Tag) (after : List Piece) : Margin where
  behind := ['}']
  dropsSpace := match t.content with
    | .comment => m.dropsSpace
    | _ => t.trimsAfter
  dropsLine := if t.content.canStandAlone then standsAlone m.behind t after else m.dropsLine

/-- The indent of a tag. A tilde leaves it none. -/
def Margin.indent (m : Margin) (t : Tag) (after : List Piece) : Indent :=
  if t.trimsBefore then ⟨[], false⟩
  else ⟨(m.behind.takeWhile isBlank).reverse, standsAlone m.behind t after⟩

/-- Gives each literal text the white space that belongs to it. -/
def layout (m : Margin) : List Piece → List Item
  | [] => []
  | .tag t :: rest => .tag t.content (m.indent t rest) :: layout (m.after t rest) rest
  | .verbatim space s :: rest =>
    let behind := (space ++ s).reverse ++ m.behind
    .text (trimEnd behind (m.trimStart s) rest) :: layout { m with behind } rest
  | .text s :: rest =>
    let behind := s.reverse ++ m.behind
    if m.dropsSpace && s.all isSpace then layout { m with behind } rest
    else
      .text (trimEnd behind (m.trimStart s) rest) ::
        layout { m with behind, dropsLine := false } rest

/-- The items of a whole body. -/
def items (pieces : List Piece) : List Item :=
  layout ⟨[], false, false⟩ pieces

end DemoScaffold.Template
