import DemoScaffold.Template.Argument

/-!
# Tags

What stands between double braces: a marker, a helper with its arguments, a comment, the start, the
middle or the end of a block, a directive, or the name of a partial. White space may stand between
the parts of a tag, and a tilde at either end asks for the white space on that side to be removed.
-/

namespace DemoScaffold.Template

/-- The start of a block: the helper, what it is given, and the names it gives to values. -/
structure Head where
  name : String
  arguments : Arguments
  names : List String
deriving Repr, Inhabited

/-- What a tag says. -/
inductive TagContent where
  | value (a : Argument)
  | call (name : String) (arguments : Arguments)
  | comment
  | open (head : Head)
  | otherwise
  | otherwiseOpen (head : Head)
  | close (name : String)
  | directive (head : Head)
  | openDirective (head : Head)
  | insert (target : Argument) (arguments : Arguments)
  | openInsert (target : Argument) (arguments : Arguments)
deriving Repr, Inhabited

/-- A tag, and whether white space before and after it is to be removed. -/
structure Tag where
  content : TagContent
  trimsBefore : Bool
  trimsAfter : Bool
deriving Repr, Inhabited

namespace Tag

/-! ## Pieces of tags -/

/-- Whether a tilde stands here, and the text behind it and the white space around it. -/
def readTilde (s : List Char) : Bool × List Char :=
  match skipSpace s with
  | '~' :: rest => (true, skipSpace rest)
  | rest => (false, rest)

/-- The end of a tag: whether it has a tilde, and the text behind it. -/
def readEnd (closing s : List Char) : Option (Bool × List Char) :=
  let (tilde, rest) := readTilde s
  (expect closing rest).map (tilde, ·)

/-- The text behind the first occurrence of `word`. -/
def findAfter (word : List Char) : List Char → Option (List Char)
  | [] => if word.isEmpty then some [] else none
  | c :: rest =>
    match expect word (c :: rest) with
    | some behind => some behind
    | none => findAfter word rest

/-- One or two names between bars, behind the word `as`. -/
def readNames (s : List Char) : Option (List String × List Char) := do
  let rest ← expect ['a', 's'] (skipSpace s)
  let rest ← expect ['|'] (skipSpace rest)
  let (first, rest) ← Argument.readName (skipSpace rest)
  match Argument.readName (skipSpace rest) with
  | some (second, rest) => return ([first, second], ← expect ['|'] (skipSpace rest))
  | none => return ([first], ← expect ['|'] (skipSpace rest))

/-- The start of a block or a directive. -/
def readHead (s : List Char) : Option (Head × List Char) := do
  let (name, rest) ← Argument.readName (skipSpace s)
  let (arguments, rest) := Arguments.read rest
  match readNames rest with
  | some (names, rest) => return (⟨name, arguments, names⟩, rest)
  | none => return (⟨name, arguments, []⟩, rest)

/-! ## Partials -/

def isPartialChar (c : Char) : Bool :=
  c.isAlphanum || c = '-' || c = '_' || c = '@' || isJoint c || 0x80 ≤ c.toNat

/-- The text up to a single quote and with it; a quote behind a backslash does not count. -/
def takeQuoted : List Char → Option (List Char)
  | '\\' :: '\'' :: rest => (takeQuoted rest).map fun s => '\\' :: '\'' :: s
  | '\'' :: _ => some ['\'']
  | c :: rest => (takeQuoted rest).map (c :: ·)
  | [] => none

/-- The name of a partial, with its quotes if it has any. -/
def readPartialName (s : List Char) : Option (String × List Char) :=
  match s.takeWhile isPartialChar, s with
  | [], '\'' :: rest =>
    match takeQuoted rest with
    | some (c :: d :: inner) =>
      some (String.ofList ('\'' :: c :: d :: inner), rest.drop (inner.length + 2))
    | _ => none
  | [], _ => none
  | name, _ => some (String.ofList name, s.dropWhile isPartialChar)

/-- What a partial is named by, and what it is given. -/
def readInsert (s : List Char) : Option (Argument × Arguments × List Char) := do
  let s := skipSpace s
  let named := (readPartialName s).map fun (name, rest) => (Argument.literal (.text name), rest)
  let (target, rest) ← named.or (Argument.readReference s)
  let (arguments, rest) := Arguments.read rest
  return (target, arguments, rest)

/-! ## Contents -/

/-- A helper with its arguments, or a marker or helper that stands alone. -/
def readValue (s : List Char) : Option (TagContent × List Char) :=
  match Argument.readApplication (Argument.read s.length) s with
  | some (name, arguments, rest) => some (.call name arguments, rest)
  | none => (Argument.readReference s).map fun (a, rest) => (.value a, rest)

/-- The middle of a block: a caret or the word `else`, alone or with the start of another block. -/
def readMiddle (s : List Char) : Option (TagContent × Bool × List Char) := do
  let rest ← (expect ['^'] s).or (expect ['e', 'l', 's', 'e'] s)
  match readEnd ['}', '}'] rest with
  | some (tilde, rest) => return (.otherwise, tilde, rest)
  | none =>
    let (head, rest) ← readHead rest
    let (tilde, rest) ← readEnd ['}', '}'] rest
    return (.otherwiseOpen head, tilde, rest)

/-- A comment behind its exclamation mark: to the first `--}}` if it begins with two hyphens and
there is one, to the first `}}` otherwise. -/
def readComment (s : List Char) : Option (List Char) :=
  let long := do
    let rest ← expect ['-', '-'] (skipSpace s)
    findAfter ['-', '-', '}', '}'] (skipSpace rest)
  long <|> findAfter ['}', '}'] (skipSpace s)

/-- The start of a block, of a directive or of a partial with a block, behind its number sign. -/
def readOpen (s : List Char) : Option (TagContent × List Char) :=
  match skipSpace s with
  | '*' :: rest => (readHead rest).map fun (head, rest) => (.openDirective head, rest)
  | '>' :: rest =>
    (readInsert rest).map fun (target, arguments, rest) => (.openInsert target arguments, rest)
  | rest => (readHead rest).map fun (head, rest) => (.open head, rest)

/-- The name of the block that ends, behind a slash; it is empty if none stands there. -/
def readClose (s : List Char) : TagContent × List Char :=
  let s := skipSpace s
  let named := (Argument.readName s).filter fun (_, rest) => (readEnd ['}', '}'] rest).isSome
  let (name, rest) := (named.or (readPartialName s)).getD ("", s)
  (.close name, rest)

/-- The contents of a tag that is neither a comment nor the middle of a block. -/
def readContent (s : List Char) : Option (TagContent × List Char) :=
  match s with
  | '\x7b' :: rest => do
    let (content, rest) ← readValue (skipSpace rest)
    return (content, ← expect ['}'] (skipSpace rest))
  | '&' :: rest =>
    (Argument.readReference (skipSpace rest)).map fun (a, rest) => (.value a, rest)
  | '#' :: rest => readOpen rest
  | '/' :: rest => some (readClose rest)
  | '*' :: rest => (readHead rest).map fun (head, rest) => (.directive head, rest)
  | '>' :: rest =>
    (readInsert rest).map fun (target, arguments, rest) => (.insert target arguments, rest)
  | _ => readValue s

/-- A tag behind its two opening braces. -/
def readInner (s : List Char) : Option (Tag × List Char) :=
  let (before, rest) := readTilde s
  match readMiddle rest with
  | some (content, after, rest) => some (⟨content, before, after⟩, rest)
  | none => do
    let (content, rest) ← readContent rest
    let (after, rest) ← readEnd ['}', '}'] rest
    return (⟨content, before, after⟩, rest)

/-- A marker or a helper in three braces, behind the opening ones. -/
def readTriple (s : List Char) : Option (Tag × List Char) := do
  let (before, rest) := readTilde s
  let (content, rest) ← readValue rest
  let (after, rest) ← readEnd ['}', '}', '}'] rest
  return (⟨content, before, after⟩, rest)

/-- Reads a tag at the start of a text. Four braces start none. -/
def read (s : List Char) : Option (Tag × List Char) := do
  let inner ← expect ['\x7b', '\x7b'] s
  match inner with
  | '\x7b' :: '\x7b' :: _ => none
  | '\x7b' :: rest => readTriple rest <|> readInner inner
  | '!' :: rest => (readComment rest).map (⟨.comment, false, false⟩, ·)
  | _ => readInner inner

/-! ## Verbatim blocks -/

def fourOpening : List Char := ['\x7b', '\x7b', '\x7b', '\x7b']

def fourClosing : List Char := ['}', '}', '}', '}']

/-- The start of a verbatim block, in four braces. -/
def readVerbatimOpen (s : List Char) : Option (Tag × List Char) := do
  let (before, rest) := readTilde (← expect fourOpening s)
  let (head, rest) ← readHead rest
  let (after, rest) ← readEnd fourClosing rest
  return (⟨.open head, before, after⟩, rest)

/-- The end of a verbatim block, in four braces. -/
def readVerbatimClose (s : List Char) : Option (Tag × List Char) := do
  let (before, rest) := readTilde (← expect fourOpening s)
  let (name, rest) ← Argument.readName (skipSpace (← expect ['/'] rest))
  let (after, rest) ← readEnd fourClosing rest
  return (⟨.close name, before, after⟩, rest)

end Tag

end DemoScaffold.Template
