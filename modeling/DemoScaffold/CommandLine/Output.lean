import DemoScaffold.ToolError

/-!
# Output

What commands print: plain lines, and log lines that are shown only if the verbosity asks for them
and that keep controls from the terminal. A command that fails says why on the error output. The
template engine logs lines of its own for debugging; they are not among these.
-/

namespace DemoScaffold.CommandLine

inductive Level where
  | warn
  | info
  | debug
deriving DecidableEq, Repr

namespace Level

/-- The verbosity from which on lines of a level are shown. -/
def verbosity : Level → Nat
  | .warn => 0
  | .info => 1
  | .debug => 2

/-- The name of a level, aligned to the right. -/
def name : Level → String
  | .warn => " WARN"
  | .info => " INFO"
  | .debug => "DEBUG"

end Level

inductive Line where
  | plain (text : String)
  | log (level : Level) (text : String)
deriving DecidableEq, Repr

/-- One character of a log line. The controls that a terminal may act on are written as their
numbers; line ends and tabs stay. -/
def loggedChar (c : Char) : List Char :=
  if c = '\x07' then "\\x07".toList
  else if c = '\x08' then "\\x08".toList
  else if c = '\x0c' then "\\x0c".toList
  else if c = '\x1b' then "\\x1b".toList
  else if c = '\x7f' then "\\x7f".toList
  else if 0x80 ≤ c.toNat ∧ c.toNat ≤ 0x9F then
    ['\\', 'u', '\x7b'] ++ Text.hexDigits c.toNat ++ ['\x7d']
  else [c]

def logged (text : String) : String :=
  String.ofList (text.toList.flatMap loggedChar)

namespace Line

/-- The line as printed, if it is shown; a log line begins with the time `stamp`. -/
def shown? (stamp : String) (verbosity : Nat) : Line → Option String
  | .plain text => some text
  | .log level text =>
    if level.verbosity ≤ verbosity then some (stamp ++ " " ++ level.name ++ " " ++ logged text)
    else none

/-- A headline with a rule under it. -/
def header (text : String) : List Line :=
  [.plain "", .plain text, .plain (String.ofList (List.replicate text.utf8ByteSize '='))]

def success (text : String) : Line := .plain ("[OK] " ++ text)

def warning (text : String) : Line := .plain ("[WARN] " ++ text)

def failure (text : String) : Line := .plain ("[ERROR] " ++ text)

def value (key text : String) : Line := .plain ("  " ++ key ++ ": " ++ text)

end Line

inductive CommandError where
  | tool (e : ToolError)
  | alreadyExists (path : Path)
  | incomplete (failed total : Nat)
deriving DecidableEq, Repr

namespace CommandError

def headline : CommandError → String
  | .tool e => e.headline
  | .alreadyExists path => path.text ++ " already exists (pass --force to overwrite)"
  | .incomplete failed total =>
    String.ofList (Number.decimalDigits failed) ++ " of " ++
      String.ofList (Number.decimalDigits total) ++ " modules failed to scaffold"

def cause? : CommandError → Option String
  | .tool e => e.cause?
  | _ => none

def shown (e : CommandError) : String :=
  let cause := match e.cause? with
    | some cause => "\n\nCaused by:\n    " ++ cause
    | none => ""
  "Error: " ++ e.headline ++ cause ++ "\n"

end CommandError

/-- What a command printed, and why it failed if it did. -/
structure Printed where
  lines : List Line
  error : Option CommandError
deriving DecidableEq, Repr

/-- The text of what is printed; `clock` is the time at which each line is printed. -/
def Printed.output (p : Printed) (clock : Nat → String) (verbosity : Nat) : String :=
  let shown := p.lines.zipIdx.filterMap fun (line, n) => line.shown? (clock n) verbosity
  String.join (shown.map (· ++ "\n"))

end DemoScaffold.CommandLine
