import DemoScaffold.Json.Number
import DemoScaffold.Json.Text
import DemoScaffold.Template.Value

/-!
# Literals

Values written in a tag: the values of JSON, where a text may also stand between single quotes. What
has the form of a literal is one, even if it is no value, like a number with a leading zero.
-/

namespace DemoScaffold.Template

/-- The characters of plain names: letters and digits of ASCII, the hyphen, the underscore, the
dollar sign, the colon and all characters outside ASCII. -/
def isNameChar (c : Char) : Bool :=
  c.isAlphanum || c = '-' || c = '_' || c = '$' || c = ':' || 0x80 ≤ c.toNat

/-- The white space that may stand between the parts of a tag. -/
def isSpace (c : Char) : Bool :=
  c = ' ' || c = '\t' || c = '\n' || c = '\r'

/-- The text behind white space. -/
def skipSpace (s : List Char) : List Char :=
  s.dropWhile isSpace

/-- The text behind a given beginning. -/
def expect (word s : List Char) : Option (List Char) :=
  if word.isPrefixOf s then some (s.drop word.length) else none

/-- The text behind a word that no further character of a name follows. -/
def expectWord (word s : List Char) : Option (List Char) := do
  let rest ← expect word s
  if rest.head?.any isNameChar then none else some rest

namespace Literal

/-- Something in the form of a literal, and the text behind it. The value is none if the literal is
malformed within its form. -/
abbrev Reading (α : Type) := Option (Option α × List Char)

/-! ## Texts -/

/-- Whether an escape of one character may stand between quotes of the given sort. -/
def isShortEscape (quote c : Char) : Bool :=
  c = quote || c = '\\' || c = '/' || c = 'b' || c = 'f' || c = 'n' || c = 'r' || c = 't'

/-- What stands between two quotes, behind the first one, and the text behind the second. -/
def readInner (quote : Char) : List Char → Option (List Char × List Char)
  | '\\' :: 'u' :: a :: b :: c :: d :: rest =>
    if [a, b, c, d].all fun digit => (Json.hexValue? digit).isSome then
      (readInner quote rest).map fun (inner, rest) =>
        ('\\' :: 'u' :: a :: b :: c :: d :: inner, rest)
    else none
  | '\\' :: c :: rest =>
    if isShortEscape quote c then
      (readInner quote rest).map fun (inner, rest) => ('\\' :: c :: inner, rest)
    else none
  | '\\' :: [] => none
  | c :: rest =>
    if c = quote then some ([], rest)
    else (readInner quote rest).map fun (inner, rest) => (c :: inner, rest)
  | [] => none

/-- What stands between single quotes as it is written between double ones. -/
def requote : List Char → List Char
  | '\\' :: '\'' :: rest => '\'' :: requote rest
  | '\\' :: c :: rest => '\\' :: c :: requote rest
  | '"' :: rest => '\\' :: '"' :: requote rest
  | c :: rest => c :: requote rest
  | [] => []

/-- The text that stands between double quotes. -/
def unquote (inner : List Char) : Option String :=
  match Json.readText (inner ++ ['"']) with
  | .ok s => some (String.ofList s)
  | .error _ => none

/-- A text between double quotes. -/
def readDouble (s : List Char) : Reading String :=
  ((expect ['"'] s).bind (readInner '"')).map fun (inner, rest) => (unquote inner, rest)

/-- A text between single quotes. -/
def readSingle (s : List Char) : Reading String :=
  ((expect ['\''] s).bind (readInner '\'')).map fun (inner, rest) =>
    (unquote (requote inner), rest)

/-! ## Numbers -/

/-- The text behind a power of ten, if one stands there. -/
def skipPower (s : List Char) : List Char :=
  match s with
  | 'E' :: rest =>
    let power := if rest.head? = some '-' then rest.drop 1 else rest
    if power.head?.any Char.isDigit then power.dropWhile Char.isDigit else s
  | _ => s

/-- The text behind digits, a point, digits, and a power of ten. -/
def skipNumber (s : List Char) : Option (List Char) :=
  let digits := if s.head? = some '-' then s.drop 1 else s
  if !digits.head?.any Char.isDigit then none
  else
    let behind := digits.dropWhile Char.isDigit
    let behind := if behind.head? = some '.' then (behind.drop 1).dropWhile Char.isDigit else behind
    let behind := skipPower behind
    if behind.head?.any isNameChar then none else some behind

def readNumber (s : List Char) : Reading Value :=
  (skipNumber s).map fun behind =>
    match Json.readNumber (s.take (s.length - behind.length)) with
    | .ok n => (some (.number n), behind)
    | .error _ => (none, behind)

/-! ## Values -/

/-- What stands up to a closing bracket, with commas between and maybe one before the first, which
is malformed; at most `limit` items. -/
def readItems {α : Type} (closing : Char) (item : List Char → Reading α) :
    (limit : Nat) → (isFirst : Bool) → List Char → Option (List (Option α) × List Char)
  | 0, _, _ => none
  | limit + 1, isFirst, s =>
    match expect [closing] s, expect [','] s with
    | some rest, _ => some ([], rest)
    | none, some rest => do
      let (x, rest) ← item (skipSpace rest)
      let (xs, rest) ← readItems closing item limit false (skipSpace rest)
      return ((if isFirst then none else x) :: xs, rest)
    | none, none =>
      if isFirst then do
        let (x, rest) ← item s
        let (xs, rest) ← readItems closing item limit false (skipSpace rest)
        return (x :: xs, rest)
      else none

/-- The key of a member, which stands between double quotes. -/
def readKey (s : List Char) : Reading String :=
  readDouble s <|> (readSingle s).map (fun (_, rest) => (none, rest))

/-- A member of an object. -/
def readMember (value : List Char → Reading Value) (s : List Char) : Reading (String × Value) :=
  (readKey s).bind fun (key, rest) =>
    (expect [':'] (skipSpace rest)).bind fun rest =>
      (value (skipSpace rest)).map fun (v, rest) =>
        (key.bind fun key => v.map fun v => (key, v), rest)

/-- The record with the given fields; of fields with one name the last is kept. -/
def ofMembers (members : List (String × Value)) : Value :=
  .record (members.foldl (fun all field => Bindings.bind field.1 field.2 all) [])

def readList (value : List Char → Reading Value) (s : List Char) : Reading Value :=
  (expect ['['] s).bind fun rest =>
    (readItems ']' value rest.length true (skipSpace rest)).map fun (xs, rest) =>
      ((xs.mapM id).map Value.list, rest)

def readObject (value : List Char → Reading Value) (s : List Char) : Reading Value :=
  (expect ['\x7b'] s).bind fun rest =>
    (readItems '\x7d' (readMember value) rest.length true (skipSpace rest)).map fun (xs, rest) =>
      ((xs.mapM id).map ofMembers, rest)

/-- A value that is neither a list nor an object. -/
def readScalar (s : List Char) : Reading Value :=
  (readDouble s).map (fun (t, rest) => (t.map Value.text, rest))
    <|> (readSingle s).map (fun (_, rest) => (none, rest))
    <|> readNumber s
    <|> (expectWord ['n', 'u', 'l', 'l'] s).map (some Value.null, ·)
    <|> (expectWord ['t', 'r', 'u', 'e'] s).map (some (Value.flag true), ·)
    <|> (expectWord ['f', 'a', 'l', 's', 'e'] s).map (some (Value.flag false), ·)

/-- A value. It is malformed if it has more than `depth` lists and objects within each other; its
form may have as many as `limit`. -/
def readValue : (limit depth : Nat) → List Char → Reading Value
  | 0, _, s => readScalar s
  | limit + 1, depth, s =>
    let value := readValue limit (depth - 1)
    (readList value s <|> readObject value s).map
        (fun (v, rest) => (if depth = 0 then none else v, rest))
      <|> readScalar s

/-- How many lists and objects of a value may stand within each other. -/
def maxDepth : Nat := 127

/-- A literal at the start of a text. Only a literal that is a text as a whole may stand between
single quotes. -/
def read (s : List Char) : Reading Value :=
  (readSingle s).map (fun (t, rest) => (t.map Value.text, rest))
    <|> readValue s.length maxDepth s

end Literal

end DemoScaffold.Template
