import DemoScaffold.DemoModule
import DemoScaffold.Path.Basic
import DemoScaffold.Template.Basic

/-!
# Plans

Where the files of a module go: into the directory named by its key, one file per template.
-/

namespace DemoScaffold

structure PlannedFile where
  fileName : String
  template : Template
deriving DecidableEq, Repr

/-- The directory of a module and its files, in the order of the templates. -/
structure Plan where
  directory : Path
  files : List PlannedFile
deriving DecidableEq, Repr

namespace Plan

def ofModule (root : Path) (m : DemoModule) (set : TemplateSet) : Plan where
  directory := root.join ⟨m.key⟩
  files := set.templates.map fun t => ⟨m.key ++ "." ++ t.suffix, t⟩

def path (p : Plan) (file : PlannedFile) : Path :=
  p.directory.join ⟨file.fileName⟩

def paths (p : Plan) : List Path :=
  p.files.map p.path

end Plan

end DemoScaffold
