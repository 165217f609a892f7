import DemoScaffold.ToolError

/-!
# Configurations

A configuration says where the modules go and which ones there are. Its entries are checked only
when modules are made of them.
-/

namespace DemoScaffold

/-- The key and the display name of a module, unchecked. -/
structure ModuleEntry where
  key : String
  display : String
deriving DecidableEq, Repr, Inhabited

/-- The directory of the modules, seen from the root, and the modules. -/
structure Config where
  baseDir : Path
  modules : List ModuleEntry
deriving DecidableEq, Repr, Inhabited

def ModuleEntry.toModule (e : ModuleEntry) : Except ToolError DemoModule :=
  match DemoModule.ofTexts e.key e.display with
  | .ok m => .ok m
  | .error fault => .error (.invalidModule e.key fault)

namespace Config

/-- The configuration that is used if no other is given. -/
def standard : Config where
  baseDir := ⟨"src/buffet/demos"⟩
  modules := [
    ⟨"anim", "Anim"⟩,
    ⟨"crate", "Crate"⟩,
    ⟨"env", "Env"⟩,
    ⟨"fibers", "Fibers"⟩,
    ⟨"rain", "Rain"⟩,
    ⟨"tree", "Tree"⟩,
    ⟨"cards", "Cards"⟩]

/-- The modules of all entries, or the error of the first bad one. -/
def toModules (c : Config) : Except ToolError (List DemoModule) :=
  c.modules.mapM ModuleEntry.toModule

/-- The directory that the module directories are created in. -/
def outputDir (c : Config) (root : Path) : Path :=
  root.join c.baseDir

end Config

end DemoScaffold
