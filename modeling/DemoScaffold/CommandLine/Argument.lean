import DemoScaffold.CommandLine.Setting

/-!
# Arguments

Reading the arguments of a command one after the other. An argument that begins with a hyphen and
has more than that is a long name, with a value behind an equals sign, or a row of letters, the last
of which may be followed by its value. A value may also be the next argument, if that is no setting
itself. Two hyphens alone make words of all arguments behind them.
-/

namespace DemoScaffold.CommandLine

/-- What a command knows: its settings and which words it takes, in order. -/
structure Grammar where
  settings : List Setting
  words : List (String → Bool)

/-- What an argument leads to: what is given by then, and the setting whose value comes next. -/
abbrev Step := Except Stop (Given × Option Setting)

/-- Whether an argument gives settings, or could if the command knew them. -/
def givesSettings (arg : String) : Bool :=
  match arg.toList with
  | '-' :: _ :: _ => true
  | _ => false

/-- The long name at the start of a text, and the value behind the equals sign if there is one. -/
def splitValue (s : List Char) : String × Option String :=
  let name := String.ofList (s.takeWhile (· ≠ '='))
  match s.dropWhile (· ≠ '=') with
  | _ :: value => (name, some (String.ofList value))
  | [] => (name, none)

def Setting.needsValue (s : Setting) : Bool :=
  match s.action with
  | .takesValue _ => true
  | _ => false

namespace Grammar

def readName (g : Grammar) (given : Given) (s : List Char) : Step :=
  let (name, value) := splitValue s
  match g.settings.find? (·.name = name), value with
  | none, _ => .error .refused
  | some s, some value => (given.giveValue s value).map (·, none)
  | some s, none => if s.needsValue then .ok (given, some s) else (given.give s).map (·, none)

/-- A row of letters, and the value of the last one. -/
def readLetters (g : Grammar) (given : Given) : List Char → Step
  | [] => .ok (given, none)
  | c :: rest =>
    match g.settings.find? (·.letter = some c) with
    | none => .error .refused
    | some s =>
      if s.needsValue then
        match rest with
        | [] => .ok (given, some s)
        | '=' :: value => (given.giveValue s (String.ofList value)).map (·, none)
        | value => (given.giveValue s (String.ofList value)).map (·, none)
      else
        match given.give s with
        | .ok given => g.readLetters given rest
        | .error stop => .error stop

def readSettings (g : Grammar) (given : Given) (arg : String) : Step :=
  match arg.toList with
  | '-' :: '-' :: name => g.readName given name
  | '-' :: letters => g.readLetters given letters
  | _ => .error .refused

def readWord (g : Grammar) (given : Given) (arg : String) : Except Stop Given :=
  match g.words[given.words.length]? with
  | some accepts =>
    if accepts arg then .ok { given with words := given.words ++ [arg] } else .error .refused
  | none => .error .refused

/-- The arguments of a command; `awaited` is the setting whose value comes next, and `literal` tells
whether all arguments are words. -/
def readFrom (g : Grammar) (given : Given) (awaited : Option Setting) (literal : Bool) :
    List String → Except Stop Given
  | [] => if awaited.isSome then .error .refused else .ok given
  | arg :: rest =>
    match awaited with
    | some s =>
      if givesSettings arg then .error .refused
      else do g.readFrom (← given.giveValue s arg) none literal rest
    | none =>
      if literal then do g.readFrom (← g.readWord given arg) none literal rest
      else if arg = "--" then g.readFrom given none true rest
      else if givesSettings arg then do
        let (given, awaited) ← g.readSettings given arg
        g.readFrom given awaited literal rest
      else do g.readFrom (← g.readWord given arg) none literal rest

/-- The arguments of a command. All its words have to be there. -/
def read (g : Grammar) (args : List String) : Except Stop Given := do
  let given ← g.readFrom .nothing none false args
  if given.words.length < g.words.length then throw .refused
  return given

end Grammar

end DemoScaffold.CommandLine
