import DemoScaffold.Template.Marker

/-!
# Arguments

What a helper is given: markers, literals and, in parentheses, the results of other helpers. Some
arguments are given by position and some by name.
-/

namespace DemoScaffold.Template

/-- What a helper is given in one place. -/
inductive Argument where
  | marker (m : Marker)
  | literal (v : Value)
  | call (name : String) (positional : List Argument) (named : List (String × Argument))
deriving Repr, Inhabited

/-- All that a helper is given. No two named arguments have the same name. -/
structure Arguments where
  positional : List Argument
  named : List (String × Argument)
deriving Repr, Inhabited

namespace Arguments

def empty : Arguments := ⟨[], []⟩

def isEmpty (args : Arguments) : Bool :=
  args.positional.isEmpty && args.named.isEmpty

def addPositional (a : Argument) (args : Arguments) : Arguments :=
  { args with positional := a :: args.positional }

/-- A named argument in front of the others. One that a later one replaces is dropped. -/
def addNamed (name : String) (a : Argument) (args : Arguments) : Arguments :=
  if args.named.any (·.1 = name) then args else { args with named := (name, a) :: args.named }

end Arguments

namespace Argument

/-! ## Reading -/

def readName (s : List Char) : Option (String × List Char) :=
  match s.takeWhile isNameChar with
  | [] => none
  | name => some (String.ofList name, s.dropWhile isNameChar)

/-- Whether one of the words `as` and `else` stands here, which are no arguments unless further
characters of a name follow, maybe after white space. -/
def isKeyword (s : List Char) : Bool :=
  match (expect ['a', 's'] s).or (expect ['e', 'l', 's', 'e'] s) with
  | some rest => !(skipSpace rest).head?.any isNameChar
  | none => false

/-- An argument given by name, read with a reader of arguments. -/
def readNamed (read : List Char → Option (Argument × List Char)) (s : List Char) :
    Option (String × Argument × List Char) := do
  let (name, rest) ← readName s
  let rest ← expect ['='] (skipSpace rest)
  let (a, rest) ← read (skipSpace rest)
  return (name, a, rest)

/-- As many arguments as follow, at most `limit`, and the text behind them. -/
def readAll (read : List Char → Option (Argument × List Char)) :
    (limit : Nat) → List Char → Arguments × List Char
  | 0, s => (.empty, s)
  | limit + 1, s =>
    match readNamed read (skipSpace s) with
    | some (name, a, rest) =>
      let (args, rest) := readAll read limit rest
      (args.addNamed name a, rest)
    | none =>
      match read (skipSpace s) with
      | some (a, rest) =>
        let (args, rest) := readAll read limit rest
        (args.addPositional a, rest)
      | none => (.empty, s)

/-- A helper and what it is given, at least one thing. -/
def readApplication (read : List Char → Option (Argument × List Char)) (s : List Char) :
    Option (String × Arguments × List Char) := do
  let (name, rest) ← readName s
  let (args, rest) := readAll read rest.length rest
  if args.isEmpty then none else return (name, args, rest)

/-- A helper in parentheses. One that is given nothing may have the form of any marker. -/
def readCall (read : List Char → Option (Argument × List Char)) (s : List Char) :
    Option (Argument × List Char) := do
  let inner := skipSpace (← expect ['('] s)
  match readApplication read inner with
  | some (name, args, rest) =>
    return (.call name args.positional args.named, ← expect [')'] (skipSpace rest))
  | none =>
    let (m, rest) ← Marker.read inner
    return (.call m.written [] [], ← expect [')'] (skipSpace rest))

/-- One argument, with at most `depth` parentheses within each other. What has the form of a literal
is not read as anything else. -/
def read : (depth : Nat) → List Char → Option (Argument × List Char)
  | 0, _ => none
  | depth + 1, s =>
    if isKeyword s then none
    else
      match Literal.read s with
      | some (v, rest) => v.map fun v => (.literal v, rest)
      | none =>
        ((Marker.read s).map fun (m, rest) => (.marker m, rest)).or (readCall (read depth) s)

/-- A marker or a helper in parentheses. -/
def readReference (s : List Char) : Option (Argument × List Char) :=
  ((Marker.read s).map fun (m, rest) => (.marker m, rest)).or (readCall (read s.length) s)

/-- The text that the argument is, if it is one. -/
def plainName? : Argument → Option String
  | .literal (.text s) => some s
  | _ => none

/-- A name that stands for itself, if the argument is one. -/
def name? : Argument → Option String
  | .literal (.text s) => some s
  | .marker m => some m.written
  | _ => none

end Argument

namespace Arguments

/-- As many arguments as follow, and the text behind them. -/
def read (s : List Char) : Arguments × List Char :=
  Argument.readAll (Argument.read s.length) s.length s

end Arguments

end DemoScaffold.Template
