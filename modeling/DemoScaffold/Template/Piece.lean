import DemoScaffold.Template.Tag

/-!
# Pieces

A template body is an alternation of literal texts and tags. Two opening braces always start a tag,
unless a backslash stands before them: one backslash makes the braces literal and is dropped, and of
several backslashes before a tag the first is dropped. Between two tags in four braces the text is
verbatim up to the next four braces.
-/

namespace DemoScaffold.Template

/-- A literal text without its escapes, a tag, or the text of a verbatim block behind the white
space at its start. -/
inductive Piece where
  | text (s : List Char)
  | tag (t : Tag)
  | verbatim (space s : List Char)
deriving Repr, Inhabited

/-- Puts literal text in front of pieces, as one text with what already stands there. -/
def addText (s : List Char) : List Piece → List Piece
  | .text u :: rest => .text (s ++ u) :: rest
  | pieces => .text s :: pieces

/-- The length of the escape at the start of a text; zero if there is none. -/
def escapeLength (s : List Char) : Nat :=
  let slashes := (s.takeWhile (· = '\\')).length
  let behind := s.drop slashes
  let braces := ['\x7b', '\x7b']
  if !braces.isPrefixOf behind then 0
  else if slashes = 1 then if braces.isPrefixOf (behind.drop 2) then 5 else 3
  else slashes

/-- A text up to the next four braces without its escapes, after its first `skip` characters, and
what stands from the braces on. -/
def verbatimAfter : (skip : Nat) → List Char → List Char × List Char
  | _, [] => ([], [])
  | skip + 1, _ :: rest => verbatimAfter skip rest
  | 0, c :: rest =>
    if Tag.fourOpening.isPrefixOf (c :: rest) then ([], c :: rest)
    else
      match escapeLength (c :: rest) with
      | 0 =>
        let (s, behind) := verbatimAfter 0 rest
        (c :: s, behind)
      | n + 1 =>
        let (s, behind) := verbatimAfter n rest
        (rest.take n ++ s, behind)

/-- A verbatim block at the start of a text: both of its tags and the text between them. -/
def readVerbatim (s : List Char) : Option (List Piece × List Char) := do
  let (start, inner) ← Tag.readVerbatimOpen s
  let (text, rest) := verbatimAfter 0 (skipSpace inner)
  let (stop, behind) ← Tag.readVerbatimClose rest
  return ([.tag start, .verbatim (inner.takeWhile isSpace) text, .tag stop], behind)

/-- The pieces at the start of a text that begins with two braces. -/
def readBraces (s : List Char) : Option (List Piece × List Char) :=
  if Tag.fourOpening.isPrefixOf s then readVerbatim s
  else (Tag.read s).map fun (t, behind) => ([.tag t], behind)

/-- The pieces of a text after its first `skip` characters; none if a tag is malformed. -/
def piecesAfter : (skip : Nat) → List Char → Option (List Piece)
  | _, [] => some []
  | skip + 1, _ :: rest => piecesAfter skip rest
  | 0, c :: rest =>
    if ['\x7b', '\x7b'].isPrefixOf (c :: rest) then do
      let (first, behind) ← readBraces (c :: rest)
      let more ← piecesAfter (rest.length - behind.length) rest
      return first ++ more
    else
      match escapeLength (c :: rest) with
      | 0 => (piecesAfter 0 rest).map (addText [c])
      | n + 1 => (piecesAfter n rest).map (addText (rest.take n))

/-- The pieces of a template body; none if a tag is malformed. -/
def pieces (body : List Char) : Option (List Piece) :=
  piecesAfter 0 body

end DemoScaffold.Template
