import DemoScaffold.Path.Basic

/-!
# Disk operations

What the program asks of a file system, and how it can fail. `FileTree` answers the requests in a
value; the command line answers them on the machine.
-/

namespace DemoScaffold

/-- Why a disk operation fails. A file for which there is no space has been opened, so it is not as
it was; `other` is any failure of the machine that is not told apart from others. -/
inductive DiskFault where
  | notFound
  | alreadyExists
  | notDirectory
  | isDirectory
  | nameTooLong
  | permissionDenied
  | nulInPath
  | notUtf8
  | noSpace
  | other (text : String)
deriving DecidableEq, Repr

/-- The system's text for a failure. -/
def DiskFault.message : DiskFault → String
  | .notFound => "No such file or directory (os error 2)"
  | .alreadyExists => "File exists (os error 17)"
  | .notDirectory => "Not a directory (os error 20)"
  | .isDirectory => "Is a directory (os error 21)"
  | .nameTooLong => "File name too long (os error 36)"
  | .permissionDenied => "Permission denied (os error 13)"
  | .nulInPath => "file name contained an unexpected NUL byte"
  | .notUtf8 => "stream did not contain valid UTF-8"
  | .noSpace => "No space left on device (os error 28)"
  | .other text => text

/-- The requests that the program makes of a disk. -/
class Disk (m : Type → Type) where
  /-- Whether anything is found at the path. -/
  occupied : Path → m Bool
  /-- Creates a directory and those above it; one that exists is fine. -/
  createDirAll : Path → m (Except DiskFault Unit)
  /-- Makes the path a file with these bytes, replacing a file that exists. -/
  writeFile : Path → List UInt8 → m (Except DiskFault Unit)
  /-- The bytes of a file. -/
  fileBytes : Path → m (Except DiskFault (List UInt8))
  /-- The files at or below the path, each as the path joined with the names that lead to it. -/
  filesUnder : Path → m (List Path)

end DemoScaffold
