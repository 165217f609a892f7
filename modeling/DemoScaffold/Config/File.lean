import DemoScaffold.Config.Format

/-!
# Configuration files

Loading a configuration from a disk and saving one to it.
-/

namespace DemoScaffold.Config

variable {m : Type → Type} [Monad m] [Disk m]

def ofBytes (path : Path) (bytes : List UInt8) : Except ToolError Config :=
  match Text.Utf8.decode? bytes with
  | none => .error (.configNotFound path .notUtf8)
  | some s =>
    match ofText s with
    | .error fault => .error (.configMalformed path fault)
    | .ok c => .ok c

def load (path : Path) : m (Except ToolError Config) := do
  match ← Disk.fileBytes path with
  | .error fault => return .error (.configNotFound path fault)
  | .ok bytes => return ofBytes path bytes

def save (c : Config) (path : Path) : m (Except ToolError Unit) := do
  match ← Disk.writeFile path (Text.Utf8.encode c.written) with
  | .error fault => return .error (.disk fault)
  | .ok () => return .ok ()

end DemoScaffold.Config
