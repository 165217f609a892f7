import DemoScaffold.Text.Order

/-!
# Paths

A path is kept as it was written. Its meaning is the list of its components: repeated and trailing
slashes and all dots but a leading one are ignored. Joining and stripping work on the text, so they
keep what the components forget.
-/

namespace DemoScaffold

/-- A path, as the text that it was written as. A path of the machine can be any bytes; one that is no
UTF-8 is not a `Path`. -/
structure Path where
  text : String
deriving DecidableEq, Repr, Inhabited

namespace Path

/-! ## Segments -/

/-- The pieces of a text between its slashes; there is always one more than slashes. -/
def splitSlash : List Char → List (List Char)
  | [] => [[]]
  | c :: rest =>
    if c = '/' then [] :: splitSlash rest
    else
      match splitSlash rest with
      | [] => [[c]]
      | s :: more => (c :: s) :: more

/-- The pieces written with a slash between any two. -/
def joinSlash (segments : List String) : String :=
  String.intercalate "/" segments

/-- The segments of a path, empty ones and dots included. -/
def segments (p : Path) : List String :=
  (splitSlash p.text.toList).map String.ofList

/-- The segments that lead nowhere: what stands between two slashes, and a dot. -/
def isIdle (segment : String) : Bool :=
  segment = "" || segment = "."

/-- A list without its longest end of idle segments. -/
def dropIdleEnd (segments : List String) : List String :=
  (segments.reverse.dropWhile isIdle).reverse

/-! ## Components -/

inductive Component where
  | root
  | current
  | parent
  | normal (name : String)
deriving DecidableEq, Repr

/-- The step that a segment after the lead stands for. -/
def Component.ofSegment? (segment : String) : Option Component :=
  if isIdle segment then none
  else if segment = ".." then some .parent
  else some (.normal segment)

/-- How a path begins, apart from its ordinary segments: at the root, with a dot, or neither. -/
def lead (p : Path) : Option Component :=
  match p.segments with
  | "" :: _ :: _ => some .root
  | "." :: _ => some .current
  | _ => none

/-- The segments after the lead. -/
def body (p : Path) : List String :=
  match p.lead with
  | some _ => p.segments.tail
  | none => p.segments

def components (p : Path) : List Component :=
  p.lead.toList ++ p.body.filterMap Component.ofSegment?

def isAbsolute (p : Path) : Bool :=
  p.lead = some .root

def same (p q : Path) : Bool :=
  p.components = q.components

/-- The path with the same lead and other segments after it. -/
def withBody (p : Path) (body : List String) : Path :=
  match p.lead with
  | some .root => ⟨joinSlash ("" :: if body.isEmpty then [""] else body)⟩
  | some _ => ⟨joinSlash ("." :: body)⟩
  | none => ⟨joinSlash body⟩

/-! ## Joining and stripping -/

/-- `q` seen from `p`: an absolute `q` stands alone, any other is written after `p`. -/
def join (p q : Path) : Path :=
  if q.isAbsolute || p.text = "" then q
  else if p.text.toList.getLast? = some '/' then ⟨p.text ++ q.text⟩
  else ⟨p.text ++ "/" ++ q.text⟩

/-- The segments left after the given components have been read from the front. -/
def dropComponents : List Component → List String → Option (List String)
  | [], body => some body
  | _ :: _, [] => none
  | c :: cs, s :: rest =>
    match Component.ofSegment? s with
    | none => dropComponents (c :: cs) rest
    | some d => if c = d then dropComponents cs rest else none

/-- What is left of `p` after the components of `base`, without idle segments at either end; the
lead stays where `base` has no component. -/
def relativeTo? (p base : Path) : Option Path :=
  let rest (body : List String) : Path := ⟨joinSlash (dropIdleEnd (body.dropWhile isIdle))⟩
  match base.components, p.lead with
  | [], _ => some (p.withBody (dropIdleEnd p.body))
  | c :: cs, some l => if c = l then (dropComponents cs p.body).map rest else none
  | cs, none => (dropComponents cs p.body).map rest

/-! ## Ancestors -/

/-- The paths that end at each ordinary segment of a reversed body, the longest first, and a
leading dot. -/
def leadingPaths (p : Path) : List String → List Path
  | [] => if p.lead = some .current then [⟨"."⟩] else []
  | s :: before =>
    if isIdle s then p.leadingPaths before
    else p.withBody (s :: before).reverse :: p.leadingPaths before

/-- A path and the directories above it, the nearest first; the root and the empty path are left
out. -/
def ancestors (p : Path) : List Path :=
  match p.leadingPaths p.body.reverse with
  | [] => []
  | _ :: above => p :: above

/-! ## Names -/

/-- The last component, if it is a name. -/
def fileName? (p : Path) : Option String :=
  match p.components.getLast? with
  | some (.normal name) => some name
  | _ => none

/-- What follows the last dot of a file name; a name whose only dot comes first has none. -/
def extension? (p : Path) : Option String := do
  let name ← p.fileName?
  let reversed := name.toList.reverse
  let after := reversed.takeWhile (· != '.')
  match reversed.dropWhile (· != '.') with
  | [] => none
  | [_] => none
  | _ => some (String.ofList after.reverse)

/-! ## Order -/

/-- A component as a list of numbers whose order is that of the components: the root, the dot, the
double dot, and names by their bytes. -/
def Component.key : Component → List Nat
  | .root => [0]
  | .current => [1]
  | .parent => [2]
  | .normal name => 3 :: Text.byteKey name

/-- The components as lists of numbers; paths are ordered by them. -/
def key (p : Path) : List (List Nat) :=
  p.components.map Component.key

/-- The order of paths: component by component, a path before those below it. -/
def le (p q : Path) : Bool :=
  !(q.key < p.key)

end Path

end DemoScaffold
