import DemoScaffold.Template.Literal

/-!
# Markers

A marker names a value. It is a list of names between dots or slashes, each plain or in brackets.
The word `this` and a leading `./` stand for the current value, two dots for the one around it,
`@root` for all bindings, and `@` asks for a name that the surrounding block gives.
-/

namespace DemoScaffold.Template

/-- The characters between the names of a marker. -/
def isJoint (c : Char) : Bool :=
  c = '.' || c = '/'

/-- A marker as it was written, how many blocks it goes up, and the names that lead to its value
from there, from all bindings, or from what the block gives. -/
structure Marker where
  written : String
  fromRoot : Bool
  fromBlock : Bool
  up : Nat
  names : List String
deriving DecidableEq, Repr, Inhabited

namespace Marker

/-- Where the reader of a marker stands: before a name, in a plain one, in brackets, or behind
them. -/
inductive Place where
  | start
  | plain
  | bracket
  | behind
deriving DecidableEq, Repr

/-- Puts a character in front of the first name. -/
def push (c : Char) : List (List Char) × List Char → List (List Char) × List Char
  | (name :: more, rest) => ((c :: name) :: more, rest)
  | ([], rest) => ([[c]], rest)

/-- Starts a name in front of the others. -/
def startName : List (List Char) × List Char → List (List Char) × List Char
  | (names, rest) => ([] :: names, rest)

/-- The names of a marker, that under way first, and the rest of the text. A joint that no name
follows does not belong to the marker. -/
def scan : Place → List Char → Option (List (List Char) × List Char)
  | .start, [] => none
  | .start, c :: rest =>
    if c = '[' then scan .bracket rest
    else if isNameChar c then (scan .plain rest).map (push c)
    else none
  | .plain, [] => some ([[]], [])
  | .plain, c :: rest =>
    if isNameChar c then (scan .plain rest).map (push c)
    else if isJoint c then ((scan .start rest).map startName).or (some ([[]], c :: rest))
    else some ([[]], c :: rest)
  | .bracket, [] => none
  | .bracket, c :: rest =>
    if c = ']' then scan .behind rest else (scan .bracket rest).map (push c)
  | .behind, [] => some ([[]], [])
  | .behind, c :: rest =>
    if isJoint c then ((scan .start rest).map startName).or (some ([[]], c :: rest))
    else some ([[]], c :: rest)

/-- The text behind a word and a joint at its start, and whether they stand there. -/
def skipWord (word s : List Char) : Bool × List Char :=
  match (expect word s).map fun rest => (rest.head?.any isJoint, rest.drop 1) with
  | some (true, rest) => (true, rest)
  | _ => (false, s)

/-- The text behind a word of the current value at its start. -/
def skipThis (s : List Char) : List Char :=
  ((expect ['.', '/'] s).getD (skipWord ['t', 'h', 'i', 's'] s).2)

/-- How often two dots and a joint stand at the start, and the text behind them. -/
def skipUp : List Char → Nat × List Char
  | '.' :: '.' :: c :: rest =>
    if isJoint c then
      let (n, rest) := skipUp rest
      (n + 1, rest)
    else (0, '.' :: '.' :: c :: rest)
  | s => (0, s)

/-- Reads a marker at the start of a text. -/
def read (s : List Char) : Option (Marker × List Char) :=
  let (fromRoot, inner) := skipWord ['@', 'r', 'o', 'o', 't'] (skipThis s)
  let (fromBlock, inner) :=
    match inner with
    | '@' :: rest => (true, rest)
    | _ => (false, inner)
  let (up, inner) := skipUp inner
  (scan .start inner).map fun (names, rest) =>
    ({ written := String.ofList (s.take (s.length - rest.length))
       fromRoot
       fromBlock
       up
       names := (names.map String.ofList).filter (· ≠ "this") }, rest)

end Marker

end DemoScaffold.Template
