import DemoScaffold.Bindings
import DemoScaffold.Text.Blank

/-!
# Demo modules

A demo module has a key, which names its directory, its files and its namespace, and a display name.
Keys consist of lower-case letters, digits and underscores and do not begin with a digit; a display
name is not blank.
-/

namespace DemoScaffold

/-- Why a key and a display name make no module. -/
inductive ModuleFault where
  | emptyKey
  | leadingDigit
  | badCharacter (c : Char)
  | blankDisplay
deriving DecidableEq, Repr, Inhabited

def ModuleFault.message : ModuleFault → String
  | .emptyKey => "key is empty"
  | .leadingDigit => "key must not start with a digit"
  | .badCharacter c =>
    "character '" ++ c.toString ++ "' not allowed (use a-z, 0-9 and '_')"
  | .blankDisplay => "display name is empty"

def isKeyChar (c : Char) : Bool :=
  ('a' ≤ c && c ≤ 'z') || c.isDigit || c == '_'

def keyFault? (key : String) : Option ModuleFault :=
  match key.toList with
  | [] => some .emptyKey
  | c :: rest =>
    if c.isDigit then some .leadingDigit
    else ((c :: rest).find? fun c => !isKeyChar c).map .badCharacter

/-- What is wrong with a key and a display name; the key comes first. -/
def moduleFault? (key display : String) : Option ModuleFault :=
  match keyFault? key with
  | some fault => some fault
  | none => if (Text.trim display.toList).isEmpty then some .blankDisplay else none

/-- A module with a faultless key and display name. -/
structure DemoModule where
  key : String
  display : String
  valid : moduleFault? key display = none
deriving DecidableEq

namespace DemoModule

/-- The module of a key and a display name, or what is wrong with them. -/
def ofTexts (key display : String) : Except ModuleFault DemoModule :=
  match h : moduleFault? key display with
  | some fault => .error fault
  | none => .ok ⟨key, display, h⟩

def shown (m : DemoModule) : String :=
  m.key ++ " (" ++ m.display ++ ")"

/-- What the markers of a module's templates stand for. -/
def bindings (m : DemoModule) : Bindings :=
  .ofList [("lower_name", m.key), ("upper_name", m.display)]

end DemoModule

end DemoScaffold
