import DemoScaffold.Text.Lines
import DemoScaffold.Text.Uppercase
import DemoScaffold.ToolError

/-!
# Scanning shaders

Lines of shader files that look like an assignment to something that could be a constant: they have
an equals sign, begin with an upper-case character, and are neither directives, comments nor the
heads of conditions and loops. The scan looks at texts line by line and parses nothing.
-/

namespace DemoScaffold

/-! ## Texts -/

/-- How directives, comments and the heads of conditions and loops begin. -/
def exemptStarts : List (List Char) :=
  [['#'], ['/', '/'], ['i', 'f', ' ', '('], ['f', 'o', 'r', ' ', '(']]

/-- Whether a trimmed line is flagged. -/
def isFlagged (line : List Char) : Bool :=
  !exemptStarts.any (·.isPrefixOf line) && line.contains '=' && line.head?.any Text.isUppercase

/-- The flagged lines of a text, trimmed. -/
def scanText (s : List Char) : List (List Char) :=
  ((Text.lines s).map Text.trim).filter isFlagged

/-- The flagged lines of a file; bytes that are no text are replaced. -/
def scanBytes (bytes : List UInt8) : List String :=
  (scanText (Text.Utf8.decodeLossy bytes)).map String.ofList

/-! ## Trees -/

structure ShaderHit where
  path : Path
  lines : List String
deriving DecidableEq, Repr, Inhabited

def isShader (p : Path) : Bool :=
  p.extension? = some "hlsl"

variable {m : Type → Type} [Monad m] [Disk m]

/-- Scans files one after the other up to the first that cannot be read. -/
def scanFiles : List Path → m (List ShaderHit × Option ToolError)
  | [] => return ([], none)
  | p :: rest => do
    match ← Disk.fileBytes p with
    | .error fault => return ([], some (.disk fault))
    | .ok bytes =>
      let (hits, failure) ← scanFiles rest
      return (⟨p, scanBytes bytes⟩ :: hits, failure)

/-- Scans the shader files below a root in the order of their paths. -/
def scanShaders (root : Path) : m (List ShaderHit × Option ToolError) := do
  if ← Disk.occupied root then
    let files ← Disk.filesUnder root
    scanFiles ((files.filter isShader).mergeSort Path.le)
  else return ([], some (.inputNotFound root))

/-- The hits of all shader files below a root. -/
def scanTree (root : Path) : m (Except ToolError (List ShaderHit)) := do
  match ← scanShaders root with
  | (hits, none) => return .ok hits
  | (_, some e) => return .error e

/-! ## Reports -/

/-- A hit with its path as the machine has it, where a path can be any bytes. -/
structure RawHit where
  path : List UInt8
  lines : List String
deriving DecidableEq, Repr

/-- The lines of the report on a file: its path, with U+FFFD for what is no UTF-8, and its flagged
lines. -/
def RawHit.reportLines (hit : RawHit) : List String :=
  ("# " ++ String.ofList (Text.Utf8.decodeLossy hit.path)) :: hit.lines.map ("  " ++ ·)

def rawReport (hits : List RawHit) : String :=
  String.join ((hits.flatMap RawHit.reportLines).map (· ++ "\n"))

def ShaderHit.raw (hit : ShaderHit) : RawHit :=
  ⟨Text.Utf8.encode hit.path.text.toList, hit.lines⟩

/-- The lines of the report on a file whose path is a text. -/
def ShaderHit.reportLines (hit : ShaderHit) : List String :=
  hit.raw.reportLines

def scanReport (hits : List ShaderHit) : String :=
  rawReport (hits.map ShaderHit.raw)

end DemoScaffold
