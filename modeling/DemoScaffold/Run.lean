import DemoScaffold.Plan
import DemoScaffold.Scaffold
import DemoScaffold.Template.Render

/-!
# Runs

A run scaffolds a list of modules below a root. A repeated key or a template that cannot be rendered
ends it with an error; a file that cannot be written ends only the module that it belongs to.
-/

namespace DemoScaffold

def Template.render (t : Template) (b : Bindings) : Except ToolError String :=
  match Template.renderBody t.body b with
  | .ok s => .ok s
  | .error (.unbound marker) => .error (.unboundPlaceholder t.kind marker)
  | .error reason => .error (.templateRefused t.kind reason)

/-- The files of a plan, each rendered from its template. -/
def Plan.render (p : Plan) (b : Bindings) : Except ToolError (List RenderedFile) :=
  p.files.mapM fun file => do
    return ⟨p.path file, ← file.template.render b⟩

/-- What came of one module: its directory, the files that have been written, and the failure to write
it, if there was one. -/
structure Outcome where
  module : DemoModule
  directory : Path
  written : List RenderedFile
  failure : Option ToolError

structure Report where
  manifest : Manifest
  outcomes : List Outcome

namespace Report

def empty : Report := ⟨.empty, []⟩

/-- The keys of the modules that could not be fully written, and why. -/
def failures (r : Report) : List (String × ToolError) :=
  r.outcomes.filterMap fun o => o.failure.map (o.module.key, ·)

def isComplete (r : Report) : Bool :=
  r.failures.isEmpty

end Report

variable {m : Type → Type} [Monad m] [Disk m]

/-- Scaffolds modules one after the other. -/
def runModules (root : Path) (set : TemplateSet) (report : Report) :
    List DemoModule → m (Except ToolError Report)
  | [] => return .ok report
  | module :: rest =>
    let plan := Plan.ofModule root module set
    match plan.render module.bindings with
    | .error e => return .error e
    | .ok files => do
      let (manifest, failure) ← writeScaffold plan.directory files report.manifest
      -- A file is written if its path is new in the manifest, and they are written in their order.
      let written := files.take (manifest.size - report.manifest.size)
      let outcome : Outcome := ⟨module, plan.directory, written, failure⟩
      runModules root set ⟨manifest, report.outcomes ++ [outcome]⟩ rest

/-- Scaffolds modules with distinct keys. -/
def run (root : Path) (modules : List DemoModule) (set : TemplateSet) :
    m (Except ToolError Report) :=
  match firstRepeat? (modules.map DemoModule.key) with
  | some key => return .error (.duplicateModule key)
  | none => runModules root set .empty modules

end DemoScaffold
