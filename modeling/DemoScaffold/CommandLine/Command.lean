import DemoScaffold.CommandLine.Argument
import DemoScaffold.Number.Reading
import DemoScaffold.Path.Basic
import DemoScaffold.Star.Shape

/-!
# Commands

The commands and their settings, and how a whole command line is read: settings that every command
knows, the name of a command, and its arguments.
-/

namespace DemoScaffold.CommandLine

inductive Command where
  | scaffold (root : Path) (config : Option Path)
  | initConfig (output : Path) (force : Bool)
  | binaryInfo (path : Path)
  | star (shape : StarShape)
  | scanShaders (root : Path)

def isPath (value : String) : Bool :=
  value ≠ ""

def pathSetting (name : String) (letter : Option Char) : Setting :=
  ⟨name, letter, .takesValue isPath⟩

def doubleSetting (name : String) : Setting :=
  ⟨name, none, .takesValue fun value => (Number.readDouble? value).isSome⟩

namespace Given

def path (g : Given) (name : String) (otherwise : String) : Path :=
  ⟨(g.value? name).getD otherwise⟩

def double (g : Given) (name : String) (otherwise : Float) : Float :=
  ((g.value? name).bind Number.readDouble?).getD otherwise

end Given

/-- The name of a command, what it knows, and the command that what is given makes. -/
structure CommandForm where
  name : String
  grammar : Grammar
  command : Given → Command

def scaffoldForm : CommandForm where
  name := "scaffold"
  grammar := ⟨commonSettings ++ [pathSetting "root" none, pathSetting "config" none], []⟩
  command g := .scaffold (g.path "root" ".") ((g.value? "config").map Path.mk)

def initConfigForm : CommandForm where
  name := "init-config"
  grammar := ⟨commonSettings ++ [pathSetting "output" (some 'o'), ⟨"force", none, .isSet⟩], []⟩
  command g := .initConfig (g.path "output" "fbgen.config.json") ("force" ∈ g.switches)

def binaryInfoForm : CommandForm where
  name := "binary-info"
  grammar := ⟨commonSettings, [isPath]⟩
  command g := .binaryInfo ⟨g.words.headD ""⟩

def starForm : CommandForm where
  name := "star"
  grammar := {
    settings := commonSettings ++ [
      ⟨"points", none, .takesValue fun value => (Number.readWord16? value).isSome⟩,
      doubleSetting "radius",
      doubleSetting "outer",
      doubleSetting "inner"]
    words := [] }
  command g := .star {
    points := ((g.value? "points").bind Number.readWord16?).getD StarShape.standard.points
    radius := g.double "radius" StarShape.standard.radius
    outer := g.double "outer" StarShape.standard.outer
    inner := g.double "inner" StarShape.standard.inner }

def scanShadersForm : CommandForm where
  name := "scan-shaders"
  grammar := ⟨commonSettings ++ [pathSetting "root" none], []⟩
  command g := .scanShaders (g.path "root" "src")

def commandForms : List CommandForm :=
  [scaffoldForm, initConfigForm, binaryInfoForm, starForm, scanShadersForm]

inductive Request where
  | version (program : String)
  | command (verbosity : Nat) (c : Command)
  | refused

/-- What stopping early in the part of the given name asks for. -/
def Stop.request (program : String) : Stop → Request
  | .version => .version program
  | .refused => .refused

/-- The request of a command's arguments, after the settings in front of its name. What is given
behind the name prevails. -/
def CommandForm.request (form : CommandForm) (verbosity : Nat) (args : List String) : Request :=
  match form.grammar.read args with
  | .error stop => stop.request ("fbgen-" ++ form.name)
  | .ok given =>
    .command (if given.verbosity = 0 then verbosity else given.verbosity) (form.command given)

def requestFrom (given : Given) : List String → Request
  | [] => .refused
  | arg :: rest =>
    match commandForms.find? (·.name = arg) with
    | some form => form.request given.verbosity rest
    | none =>
      if givesSettings arg then
        match (Grammar.mk commonSettings []).readSettings given arg with
        | .ok (given, _) => requestFrom given rest
        | .error stop => stop.request "fbgen"
      else .refused

def request (args : List String) : Request :=
  requestFrom .nothing args

end DemoScaffold.CommandLine
