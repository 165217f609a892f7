import DemoScaffold.DemoModule
import DemoScaffold.Disk.Basic
import DemoScaffold.Json.Fault
import DemoScaffold.Template.Fault
import DemoScaffold.Template.Kind

/-!
# Errors

What can go wrong in the operations of the library, and the texts for it: a headline and, for some
errors, a cause.
-/

namespace DemoScaffold

/-- Why an operation fails. -/
inductive ToolError where
  | configNotFound (path : Path) (cause : DiskFault)
  | configMalformed (path : Path) (cause : JsonFault)
  | invalidModule (key : String) (fault : ModuleFault)
  | duplicateModule (key : String)
  | duplicateTemplate (kind : TemplateKind)
  | unboundPlaceholder (kind : TemplateKind) (marker : String)
  | templateRefused (kind : TemplateKind) (reason : Template.RenderFault)
  | writeFailed (path : Path) (cause : DiskFault)
  | inputNotFound (path : Path)
  | badRingPoints (points : UInt16)
  | disk (fault : DiskFault)
deriving DecidableEq, Repr

namespace ToolError

def headline : ToolError → String
  | .configNotFound path _ => "config file not found at " ++ path.text
  | .configMalformed path _ => "failed to parse config at " ++ path.text
  | .invalidModule key fault => "invalid module '" ++ key ++ "': " ++ fault.message
  | .duplicateModule key => "duplicate module key: " ++ key
  | .duplicateTemplate kind => "template set contains more than one " ++ kind.name ++ " template"
  | .unboundPlaceholder kind marker =>
    "unbound placeholder '" ++ marker ++ "' in " ++ kind.name ++ " template"
  | .templateRefused kind reason =>
    "template rendering failed: " ++ kind.name ++ " template: " ++ reason.message
  | .writeFailed path _ => "failed to write " ++ path.text
  | .inputNotFound path => "input file not found: " ++ path.text
  | .badRingPoints points =>
    "invalid argument: star needs between 3 and 65534 ring points, got " ++
      String.ofList (Number.decimalDigits points.toNat)
  | .disk fault => fault.message

def cause? : ToolError → Option String
  | .configNotFound _ cause => some cause.message
  | .configMalformed _ cause => some cause.message
  | .writeFailed _ cause => some cause.message
  | _ => none

def message (e : ToolError) : String :=
  match e.cause? with
  | some cause => e.headline ++ ": " ++ cause
  | none => e.headline

end ToolError

end DemoScaffold
