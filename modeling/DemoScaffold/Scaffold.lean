import DemoScaffold.Manifest
import DemoScaffold.Text.Utf8
import DemoScaffold.ToolError

/-!
# Writing scaffolds

A scaffold is a directory with its files. Writing it creates the directory and then one file after
the other, and stops at the first failure; what has been written stays and is in the manifest.
-/

namespace DemoScaffold

structure RenderedFile where
  path : Path
  contents : String
deriving DecidableEq, Repr

def RenderedFile.bytes (f : RenderedFile) : List UInt8 :=
  Text.Utf8.encode f.contents.toList

variable {m : Type → Type} [Monad m] [Disk m]

/-- Writes files up to the first failure; gives the manifest after that, and the failure. -/
def writeFiles (manifest : Manifest) : List RenderedFile → m (Manifest × Option ToolError)
  | [] => return (manifest, none)
  | f :: rest => do
    match ← Disk.writeFile f.path f.bytes with
    | .error fault => return (manifest, some (.writeFailed f.path fault))
    | .ok () => writeFiles (manifest.push f.path) rest

/-- Creates a directory and writes files up to the first failure. -/
def writeScaffold (directory : Path) (files : List RenderedFile) (manifest : Manifest) :
    m (Manifest × Option ToolError) := do
  match ← Disk.createDirAll directory with
  | .error fault => return (manifest, some (.writeFailed directory fault))
  | .ok () => writeFiles manifest files

end DemoScaffold
