import DemoScaffold.CommandLine.Run

/-!
# The command-line program

The only module that touches the machine: it answers the requests to a disk on the machine's file
system, and prints what the command line asks for.
-/

namespace DemoScaffold

/-! ## The machine's disk -/

/-- Whether a code of the machine is the given error number; some parts of the machine negate
it. -/
def isErrorNumber (number code : UInt32) : Bool :=
  code = number || code = 0 - number

/-- The failures of the machine that are told apart. -/
def DiskFault.known? : IO.Error → Option DiskFault
  | .noFileOrDirectory .. => some .notFound
  | .alreadyExists .. => some .alreadyExists
  | .permissionDenied .. => some .permissionDenied
  | .inappropriateType _ code _ =>
    if isErrorNumber 20 code then some .notDirectory
    else if isErrorNumber 21 code then some .isDirectory
    else none
  | .invalidArgument _ code _ => if isErrorNumber 36 code then some .nameTooLong else none
  | .resourceExhausted _ code _ => if isErrorNumber 28 code then some .noSpace else none
  | _ => none

def DiskFault.ofError (e : IO.Error) : DiskFault :=
  (known? e).getD (.other (toString e))

/-- Does something with a path on the machine. -/
def attempt {α : Type} (p : Path) (action : IO α) : IO (Except DiskFault α) :=
  if p.text.toList.contains '\x00' then return .error .nulInPath
  else tryCatch (return .ok (← action)) fun e => return .error (.ofError e)

/-- Makes a path of the machine a file with these bytes. They are flushed, as it is only then that a
lack of space is noticed. -/
def overwrite (p : Path) (bytes : List UInt8) : IO Unit :=
  IO.FS.withFile p.text .write fun file => do
    file.write ⟨bytes.toArray⟩
    file.flush

/-- Whether anything is found at a path of the machine. -/
def found (p : Path) : IO Bool := do
  if p.text = "" || p.text.toList.contains '\x00' then return false
  else ((← IO.currentDir) / p.text).pathExists

/-- Whether a path of the machine is a directory. -/
def isDirectory (p : Path) : IO Bool := do
  if p.text.toList.contains '\x00' then return false
  else ((← IO.currentDir) / p.text).isDir

/-- Tries to create a directory; a refusal does not matter if the directory is there. -/
def ensureDirectory (p : Path) : IO (Except DiskFault Unit) := do
  match ← attempt p (IO.FS.createDir p.text) with
  | .ok () => return .ok ()
  | .error .notFound => return .error .notFound
  | .error fault => return if ← isDirectory p then .ok () else .error fault

/-- Creates the first of a path's ancestors, and the ones above it where they are missing. -/
def createDirectories : List Path → IO (Except DiskFault Unit)
  | [] => return .ok ()
  | p :: above => do
    match ← ensureDirectory p with
    | .error .notFound =>
      match ← createDirectories above with
      | .ok () => ensureDirectory p
      | .error fault => return .error fault
    | result => return result

/-- The files at or below a path of the machine; what cannot be listed has none. -/
partial def listFiles (p : Path) : IO (List Path) := do
  if ← isDirectory p then
    let place := (← IO.currentDir) / p.text
    let entries ← tryCatch place.readDir fun _ => return #[]
    let below ← entries.toList.mapM fun e => listFiles (p.join ⟨e.fileName⟩)
    return below.flatten
  else return [p]

instance : Disk IO where
  occupied := found
  createDirAll p := createDirectories p.ancestors
  writeFile p bytes := attempt p (overwrite p bytes)
  fileBytes p := attempt p do return (← IO.FS.readBinFile p.text).toList
  filesUnder := listFiles

/-! ## The program -/

/-- Runs the program on the machine and gives its exit code. -/
def runOnMachine (args : List String) : IO UInt32 := do
  let stamp := toString (← IO.monoMsNow) ++ "ms"
  -- The lines are printed together at the end, so one time is that of all of them.
  let ending ← CommandLine.run (fun _ => stamp) args
  match ending with
  | .refused => IO.eprintln "Usage: fbgen [OPTIONS] <COMMAND>"
  | .done output => IO.print output
  | .failed output error =>
    IO.print output
    IO.eprint error
  return ending.code

end DemoScaffold

def main (args : List String) : IO UInt32 :=
  DemoScaffold.runOnMachine args
