import DemoScaffold.CommandLine.Perform

/-!
# Running the program

What a command line prints and with what it ends.
-/

namespace DemoScaffold.CommandLine

/-- How the program ends: it refuses its command line, or it is done, or it failed. -/
inductive Ending where
  | refused
  | done (output : String)
  | failed (output error : String)
deriving DecidableEq, Repr

def Ending.code : Ending → UInt32
  | .refused => 2
  | .done _ => 0
  | .failed .. => 1

variable {m : Type → Type} [Monad m] [Disk m]

/-- Runs the program; `clock` is the time at which each line is printed. -/
def run (clock : Nat → String) (args : List String) : m Ending := do
  match request args with
  | .refused => return .refused
  | .version program => return .done (program ++ " 0.1.0\n")
  | .command verbosity c =>
    let printed ← c.perform
    let output := printed.output clock verbosity
    match printed.error with
    | none => return .done output
    | some e => return .failed output e.shown

end DemoScaffold.CommandLine
