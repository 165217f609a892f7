import DemoScaffold.Path.Basic

/-!
# Manifests

The paths of the files that have been written, in the order of writing.
-/

namespace DemoScaffold

/-- The paths written so far. -/
structure Manifest where
  paths : List Path
deriving DecidableEq, Repr, Inhabited

namespace Manifest

def empty : Manifest := ⟨[]⟩

def push (m : Manifest) (p : Path) : Manifest :=
  ⟨m.paths ++ [p]⟩

def size (m : Manifest) : Nat :=
  m.paths.length

def isEmpty (m : Manifest) : Bool :=
  m.paths.isEmpty

/-- Whether two manifests list paths with the same components. -/
def same (m n : Manifest) : Bool :=
  m.paths.map Path.components = n.paths.map Path.components

/-- The paths as seen from `root`; a path that does not start with it stays as it is. -/
def relativeTo (m : Manifest) (root : Path) : List Path :=
  m.paths.map fun p => (p.relativeTo? root).getD p

end Manifest

end DemoScaffold
