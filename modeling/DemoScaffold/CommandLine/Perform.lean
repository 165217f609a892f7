import DemoScaffold.Binary.Info
import DemoScaffold.CommandLine.Command
import DemoScaffold.CommandLine.Output
import DemoScaffold.Config.File
import DemoScaffold.Run
import DemoScaffold.Shader.Scan
import DemoScaffold.Template.Demo

/-!
# Performing commands

What each command does on a disk and what it prints.
-/

namespace DemoScaffold.CommandLine

variable {m : Type → Type} [Monad m] [Disk m]

def digits (n : Nat) : String :=
  String.ofList (Number.decimalDigits n)

/-! ## Scaffolding -/

def writtenLine (f : RenderedFile) : Line :=
  .log .debug ("wrote " ++ f.path.text ++ " (" ++ digits f.bytes.length ++ " bytes)")

def outcomeLine (o : Outcome) : Line :=
  match o.failure with
  | none => .log .info ("scaffolded " ++ o.module.shown ++ " in " ++ o.directory.text)
  | some e => .log .warn ("module " ++ o.module.key ++ " failed: " ++ e.headline)

/-- What is logged for a module: one line for each file as it is written, and one for what came of
it all. -/
def outcomeLines (o : Outcome) : List Line :=
  o.written.map writtenLine ++ [outcomeLine o]

/-- What is printed about a run with `total` modules below `root`. -/
def reportPrinted (root : Path) (total : Nat) (r : Report) : Printed :=
  let paths := (r.manifest.relativeTo root).map fun p => Line.plain p.text
  let lines := r.outcomes.flatMap outcomeLines ++ paths
  match r.failures with
  | [] =>
    let summary := "Scaffolded " ++ digits total ++ " modules (" ++ digits r.manifest.size ++
      " files)"
    ⟨lines ++ [.success summary], none⟩
  | failures =>
    let failureLine (failure : String × ToolError) : Line :=
      .failure (failure.1 ++ ": " ++ failure.2.message)
    ⟨lines ++ failures.map failureLine, some (.incomplete failures.length total)⟩

/-- Scaffolds the modules of a configuration; `before` has been printed already. -/
def scaffoldConfig (root : Path) (c : Config) (before : List Line) : m Printed := do
  match c.toModules with
  | .error e => return ⟨before, some (.tool e)⟩
  | .ok modules =>
    let directory := c.outputDir root
    let before := before ++ [
      .value "Output" directory.text,
      .value "Modules" (digits modules.length),
      .plain "[1/1] Rendering and writing templates..."]
    match ← run directory modules .demo with
    | .error e => return ⟨before, some (.tool e)⟩
    | .ok report =>
      let printed := reportPrinted root modules.length report
      return { printed with lines := before ++ printed.lines }

/-- Scaffolds the modules of a configuration file, or the standard ones. -/
def scaffold (root : Path) (config : Option Path) : m Printed := do
  let header := Line.header "fbgen scaffold"
  match config with
  | none => scaffoldConfig root .standard header
  | some path =>
    let before := header ++ [.log .info ("loading module list from " ++ path.text)]
    match ← Config.load path with
    | .error e => return ⟨before, some (.tool e)⟩
    | .ok c => scaffoldConfig root c before

/-! ## Writing a configuration -/

/-- Writes the standard configuration to a file. A file that exists is kept unless `force` is
given. -/
def initConfig (output : Path) (force : Bool) : m Printed := do
  let header := Line.header "fbgen init-config"
  let found ← Disk.occupied output
  if found && !force then return ⟨header, some (.alreadyExists output)⟩
  let before := header ++ if found then [.warning ("Overwriting " ++ output.text)] else []
  match ← Config.standard.save output with
  | .error e => return ⟨before, some (.tool e)⟩
  | .ok () =>
    let summary := "Wrote " ++ digits Config.standard.modules.length ++ " modules to " ++
      output.text
    return ⟨before ++ [
      .success summary,
      .plain "",
      .plain "  Next steps:",
      .plain ("    edit " ++ output.text),
      .plain ("    fbgen scaffold --config " ++ output.text),
      .plain ""], none⟩

/-! ## Looking at files -/

def binaryInfo (path : Path) : m Printed := do
  match ← BinaryInfo.inspect path with
  | .error e => return ⟨[], some (.tool e)⟩
  | .ok info =>
    return ⟨[
      .log .debug ("read " ++ digits info.size ++ " bytes from " ++ path.text),
      .plain info.report], none⟩

def scanShaderFiles (root : Path) : m Printed := do
  let (hits, failure) ← scanShaders root
  let scanned := hits.map fun hit => Line.log .debug
    (hit.path.text ++ ": " ++ digits hit.lines.length ++ " flagged lines")
  match failure, hits with
  | some e, _ => return ⟨scanned, some (.tool e)⟩
  | none, [] => return ⟨[.warning ("no .hlsl files under " ++ root.text)], none⟩
  | none, hits => return ⟨scanned ++ (hits.flatMap ShaderHit.reportLines).map Line.plain, none⟩

/-! ## Stars -/

def starTables (shape : StarShape) : Printed :=
  match shape.generate with
  | .error e => ⟨[], some (.tool e)⟩
  | .ok mesh =>
    let lines := mesh.sourceLines?.getD []
    ⟨lines.map fun line => .plain (String.ofList line), none⟩

def Command.perform : Command → m Printed
  | .scaffold root config => CommandLine.scaffold root config
  | .initConfig output force => CommandLine.initConfig output force
  | .binaryInfo path => CommandLine.binaryInfo path
  | .star shape => return starTables shape
  | .scanShaders root => scanShaderFiles root

end DemoScaffold.CommandLine
