/-!
# Template kinds

The four files of a module.
-/

namespace DemoScaffold

/-- The kind of file that a template produces. -/
inductive TemplateKind where
  | source
  | interface
  | shaderSource
  | shaderInterface
deriving DecidableEq, Repr, Inhabited

namespace TemplateKind

def all : List TemplateKind := [.source, .interface, .shaderSource, .shaderInterface]

def name : TemplateKind → String
  | .source => "source"
  | .interface => "interface"
  | .shaderSource => "shader source"
  | .shaderInterface => "shader interface"

/-- The suffix of a file of this kind, without the dot. -/
def defaultSuffix : TemplateKind → String
  | .source => "cpp"
  | .interface => "hpp"
  | .shaderSource => "hlsl"
  | .shaderInterface => "hlsli"

end TemplateKind

end DemoScaffold
