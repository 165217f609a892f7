/-!
# Settings

What can be given on a command line besides words: switches that are counted or given at most once,
and settings with a value. A setting has a long name and may have a letter.
-/

namespace DemoScaffold.CommandLine

/-- What giving a setting does. -/
inductive Action where
  | raisesVerbosity
  | showsVersion
  | isSet
  | takesValue (accepts : String → Bool)

structure Setting where
  name : String
  letter : Option Char
  action : Action

def commonSettings : List Setting := [
  ⟨"verbose", some 'v', .raisesVerbosity⟩,
  ⟨"version", some 'V', .showsVersion⟩]

/-- What has been given so far. -/
structure Given where
  verbosity : Nat
  switches : List String
  values : List (String × String)
  words : List String
deriving DecidableEq, Repr, Inhabited

/-- Why the reading of a command line ends early. -/
inductive Stop where
  | refused
  | version
deriving DecidableEq, Repr

namespace Given

def nothing : Given := ⟨0, [], [], []⟩

def value? (g : Given) (name : String) : Option String :=
  g.values.lookup name

def give (g : Given) (s : Setting) : Except Stop Given :=
  match s.action with
  | .raisesVerbosity => .ok { g with verbosity := g.verbosity + 1 }
  | .showsVersion => .error .version
  | .isSet =>
    if s.name ∈ g.switches then .error .refused
    else .ok { g with switches := s.name :: g.switches }
  | .takesValue _ => .error .refused

/-- Gives a setting with a value. A value may be given once. -/
def giveValue (g : Given) (s : Setting) (value : String) : Except Stop Given :=
  match s.action with
  | .takesValue accepts =>
    if accepts value && (g.value? s.name).isNone then
      .ok { g with values := (s.name, value) :: g.values }
    else .error .refused
  | _ => .error .refused

end Given

end DemoScaffold.CommandLine
