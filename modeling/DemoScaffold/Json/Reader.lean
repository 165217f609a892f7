import DemoScaffold.Json.Skip

/-!
# Readers of JSON values

A reader takes a value of the shape it asks for from the start of a list of tokens. There are
readers of texts, of lists, and of records with two fields, which are written as objects or as lists
of their fields in order. An object may have further members, which are passed over.
-/

namespace DemoScaffold.Json

/-- Takes a value from the start of a list of tokens and gives the tokens behind it. -/
abbrev Reader (α : Type) := List Token → Except JsonFault (α × List Token)

/-- The fault of tokens that do not start with a value of the shape asked for. -/
def mismatch (expected : String) : List Token → JsonFault
  | [] => .eofInValue
  | t :: _ =>
    match t with
    | .null => .invalidType .null expected
    | .bool b => .invalidType (.bool b) expected
    | .number (.ok n) => .invalidType (.number n) expected
    | .number (.error fault) => fault
    | .text (.ok s) => .invalidType (.text s) expected
    | .text (.error fault) => fault
    | .openList => .invalidType .sequence expected
    | .openObject => .invalidType .map expected
    | .broken _ read _ => read
    | .closeList | .closeObject | .comma | .colon | .stray => .expectedValue

/-! ## Texts -/

def readString (expected : String) : Reader String
  | .text (.ok s) :: rest => .ok (String.ofList s, rest)
  | ts => .error (mismatch expected ts)

/-! ## Lists -/

/-- Takes what stands before an item of a list, for the first item nothing; none at the list's end,
which is taken too. -/
def nextItem : (isFirst : Bool) → List Token → Except JsonFault (Option (List Token))
  | _, [] => .error .eofInList
  | _, .closeList :: _ => .ok none
  | true, ts => .ok (some ts)
  | false, [.comma] => .error .eofInValue
  | false, .comma :: .closeList :: _ => .error .trailingComma
  | false, .comma :: ts => .ok (some ts)
  | false, _ => .error .expectedCommaOrBracket

/-- Reads the items of a list up to its end, at most `limit` of them. -/
def readItems {α : Type} (item : Reader α) : (limit : Nat) → (isFirst : Bool) → Reader (List α)
  | 0, _, _ => .error .eofInList
  | limit + 1, isFirst, ts => do
    match ← nextItem isFirst ts with
    | none => return ([], ts.tail)
    | some ts =>
      let (x, rest) ← item ts
      let (xs, rest) ← readItems item limit false rest
      return (x :: xs, rest)

/-- Reads a list. No list has more items than tokens follow. -/
def readList {α : Type} (item : Reader α) : Reader (List α)
  | .openList :: rest => readItems item (rest.length + 1) true rest
  | ts => .error (mismatch "a sequence" ts)

/-! ## Records -/

/-- A field: its name and how its value is read. -/
structure Field (α : Type) where
  name : String
  read : Reader α

/-- A record with two fields, and its name in messages. -/
structure Record (α β : Type) where
  name : String
  first : Field α
  second : Field β

def readKey : List Token → Except JsonFault (String × List Token)
  | .text (.ok s) :: rest => .ok (String.ofList s, rest)
  | .text (.error fault) :: _ => .error fault
  | .broken true read _ :: _ => .error read
  | _ => .error .keyMustBeString

/-- Takes the key of the next member; none at the object's end. -/
def nextKey : (isFirst : Bool) → List Token → Except JsonFault (Option (String × List Token))
  | _, [] => .error .eofInObject
  | _, .closeObject :: _ => .ok none
  | true, ts => (readKey ts).map some
  | false, [.comma] => .error .eofInValue
  | false, .comma :: .closeObject :: _ => .error .trailingComma
  | false, .comma :: ts => (readKey ts).map some
  | false, _ => .error .expectedCommaOrBrace

def readColon : List Token → Except JsonFault (List Token)
  | [] => .error .eofInObject
  | .colon :: rest => .ok rest
  | _ => .error .expectedColon

namespace Field

variable {α : Type}

/-- Reads the colon and the value of a field that has not been read before. -/
def readOnce (f : Field α) (known : Option α) (ts : List Token) :
    Except JsonFault (α × List Token) := do
  if known.isSome then throw (.duplicateField f.name)
  f.read (← readColon ts)

/-- The value of a field at the end of its record. -/
def get (f : Field α) : Option α → Except JsonFault α
  | some value => .ok value
  | none => .error (.missingField f.name)

end Field

namespace Record

variable {α β : Type}

/-- Reads the members of an object up to its end, at most `limit` of them; `a` and `b` are the
fields read before. -/
def readMembers (r : Record α β) : (limit : Nat) → (isFirst : Bool) → (a : Option α) →
    (b : Option β) → Reader (α × β)
  | 0, _, _, _, _ => .error .eofInObject
  | limit + 1, isFirst, a, b, ts => do
    match ← nextKey isFirst ts with
    | none => return ((← r.first.get a, ← r.second.get b), ts.tail)
    | some (key, rest) =>
      if key = r.first.name then
        let (value, rest) ← r.first.readOnce a rest
        r.readMembers limit false (some value) b rest
      else if key = r.second.name then
        let (value, rest) ← r.second.readOnce b rest
        r.readMembers limit false a (some value) rest
      else
        let rest ← skipValue (← readColon rest)
        r.readMembers limit false a b rest

/-- Takes an item of a list that has to have one there; `length` items came before it. -/
def needItem (r : Record α β) (length : Nat) (ts : List Token) : Except JsonFault (List Token) := do
  match ← nextItem (length = 0) ts with
  | some ts => return ts
  | none => throw (.invalidLength length (r.name ++ " with 2 elements"))

/-- Takes the end of a list that may have no further items. -/
def readListEnd : List Token → Except JsonFault (List Token)
  | [] => .error .eofInList
  | .closeList :: rest => .ok rest
  | .comma :: .closeList :: _ => .error .trailingComma
  | _ => .error .trailingCharacters

def read (r : Record α β) : Reader (α × β)
  | .openObject :: rest => r.readMembers (rest.length + 1) true none none rest
  | .openList :: rest => do
    let (a, rest) ← r.first.read (← r.needItem 0 rest)
    let (b, rest) ← r.second.read (← r.needItem 1 rest)
    return ((a, b), ← readListEnd rest)
  | ts => .error (mismatch r.name ts)

end Record

/-- What a reader makes of a whole text. -/
def readWhole {α : Type} (read : Reader α) (s : List Char) : Except JsonFault α := do
  match ← read (tokens s) with
  | (x, []) => return x
  | _ => throw .trailingCharacters

end DemoScaffold.Json
