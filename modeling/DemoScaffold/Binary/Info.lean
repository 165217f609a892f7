import DemoScaffold.Binary.Sha256
import DemoScaffold.ToolError

/-!
# Binary reports

The size and the SHA-256 digest of a file. The size is shown in mebibytes with two places: the size
is rounded to a double and divided twice, and a half goes to the even neighbour.
-/

namespace DemoScaffold

/-- The double that is got by dividing the double nearest to `size` twice by 1024. -/
def mebibytes (size : Nat) : Nat :=
  let kibi := Number.binary64.nearest 1024 1
  Number.binary64.quotient (Number.binary64.quotient (Number.binary64.nearest size 1) kibi) kibi

/-- The mebibytes of a size with two places. -/
def mebibyteDigits (size : Nat) : List Char :=
  match Number.binary64.decode (mebibytes size) with
  | .finite _ m e => Number.fixedDigits 2 (Number.scaledNearest 2 m e)
  | _ => []

/-- The size and the digest of a file. -/
structure BinaryInfo where
  path : Path
  size : Nat
  digest : String
deriving DecidableEq, Repr

namespace BinaryInfo

def shownSize (info : BinaryInfo) : String :=
  String.ofList (mebibyteDigits info.size) ++ " MB (" ++
    String.ofList (Number.decimalDigits info.size) ++ " bytes)"

/-- The report, two lines without an end. -/
def report (info : BinaryInfo) : String :=
  "Executable size: " ++ info.shownSize ++ "\nSHA256: " ++ info.digest

def ofBytes (path : Path) (bytes : List UInt8) : BinaryInfo :=
  ⟨path, bytes.length, Sha256.hexDigest bytes⟩

variable {m : Type → Type} [Monad m] [Disk m]

def inspect (path : Path) : m (Except ToolError BinaryInfo) := do
  if ← Disk.occupied path then
    match ← Disk.fileBytes path with
    | .error fault => return .error (.disk fault)
    | .ok bytes => return .ok (ofBytes path bytes)
  else return .error (.inputNotFound path)

end BinaryInfo

end DemoScaffold
