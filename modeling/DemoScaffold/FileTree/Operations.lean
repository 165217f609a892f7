import DemoScaffold.FileTree.Basic

/-!
# Operations on file trees

A path is resolved segment by segment from the top, also one that does not begin with a slash. Only
directories can be walked through, a dot and an empty segment stay where they are but ask for a
directory too, and a double dot goes up. `FileTree` answers the requests of `Disk`.
-/

namespace DemoScaffold

/-- What is wrong with a path whatever the tree holds: an empty text, a NUL, or 4096 bytes or
more. -/
def Path.fault? (p : Path) : Option DiskFault :=
  if p.text.toList.contains '\x00' then some .nulInPath
  else if p.text = "" then some .notFound
  else if 4096 ≤ p.text.utf8ByteSize then some .nameTooLong
  else none

/-- The segments before the last one that is not empty, that last one, and whether a slash follows
it; a path of slashes only has no such segment. -/
def Path.target? (p : Path) : Option (List String × String × Bool) :=
  let reversed := p.segments.reverse
  match reversed.dropWhile (· = "") with
  | [] => none
  | last :: before => some (before.reverse, last, reversed.head? = some "")

namespace FileTree

/-! ## Resolving paths -/

/-- Where a segment leads from a location. -/
def step (t : FileTree) (here : Location) (segment : String) : Except DiskFault Location :=
  match t.lookup here with
  | none => .error .notFound
  | some (.file _) => .error .notDirectory
  | some .directory =>
    if Path.isIdle segment then .ok here
    else if segment = ".." then .ok here.dropLast
    else if 255 < segment.utf8ByteSize then .error .nameTooLong
    else if (t.lookup (here ++ [segment])).isSome then .ok (here ++ [segment])
    else .error .notFound

def walk (t : FileTree) : Location → List String → Except DiskFault Location
  | here, [] => .ok here
  | here, s :: rest => do
    let next ← t.step here s
    t.walk next rest

/-- Where a path leads. The top is both the root of absolute paths and the directory that other paths
start from. -/
def locate (t : FileTree) (p : Path) : Except DiskFault Location :=
  match p.fault? with
  | some fault => .error fault
  | none => t.walk [] p.segments

def find (t : FileTree) (p : Path) : Except DiskFault Entry := do
  let l ← t.locate p
  match t.lookup l with
  | some e => .ok e
  | none => .error .notFound

def occupied (t : FileTree) (p : Path) : Bool :=
  (t.find p).isOk

def isDirectory (t : FileTree) (p : Path) : Bool :=
  match t.find p with
  | .ok .directory => true
  | _ => false

/-- The directory in which the last segment of a path is to be found. -/
def holder (t : FileTree) (before : List String) : Except DiskFault Location := do
  let dir ← t.walk [] before
  match t.lookup dir with
  | some .directory => .ok dir
  | some (.file _) => .error .notDirectory
  | none => .error .notFound

/-! ## Directories -/

def makeDirectory (t : FileTree) (p : Path) : Except DiskFault FileTree :=
  match p.fault?, p.target? with
  | some fault, _ => .error fault
  | none, none => .error .alreadyExists
  | none, some (before, last, _) => do
    let dir ← t.holder before
    if last = "." ∨ last = ".." then .error .alreadyExists
    else if 255 < last.utf8ByteSize then .error .nameTooLong
    else if (t.lookup (dir ++ [last])).isSome then .error .alreadyExists
    else .ok (t.set dir last .directory)

/-- Creates the first of a path's ancestors, and the ones above it where they are missing. What has
been created stays when a later step fails. -/
def makeDirectories (t : FileTree) : List Path → Except DiskFault Unit × FileTree
  | [] => (.ok (), t)
  | p :: above =>
    match t.makeDirectory p with
    | .ok made => (.ok (), made)
    | .error .notFound =>
      match t.makeDirectories above with
      | (.error fault, partly) => (.error fault, partly)
      | (.ok (), ready) =>
        match ready.makeDirectory p with
        | .ok made => (.ok (), made)
        | .error fault => (if ready.isDirectory p then .ok () else .error fault, ready)
    | .error fault => (if t.isDirectory p then .ok () else .error fault, t)

/-- Creates a directory and those above it. -/
def createDirAll (t : FileTree) (p : Path) : Except DiskFault Unit × FileTree :=
  t.makeDirectories p.ancestors

/-! ## Files -/

/-- Whether a file at a location can take all of some bytes. -/
def hasRoom (t : FileTree) (l : Location) (bytes : List UInt8) : Bool :=
  (t.room l).all fun n => bytes.length ≤ n

/-- The bytes that a file at a location takes: the beginning that fits. -/
def taken (t : FileTree) (l : Location) (bytes : List UInt8) : List UInt8 :=
  bytes.take ((t.room l).getD bytes.length)

/-- Writes a file. It is opened first, which makes it an empty file or fails and changes nothing; if it
does not take all bytes, those that it has taken stay. -/
def writeFile (t : FileTree) (p : Path) (bytes : List UInt8) : Except DiskFault Unit × FileTree :=
  match p.fault?, p.target? with
  | some fault, _ => (.error fault, t)
  | none, none => (.error .isDirectory, t)
  | none, some (before, last, slash) =>
    match t.holder before with
    | .error fault => (.error fault, t)
    | .ok dir =>
      if last = "." ∨ last = ".." ∨ slash then (.error .isDirectory, t)
      else if 255 < last.utf8ByteSize then (.error .nameTooLong, t)
      else if t.lookup (dir ++ [last]) = some .directory then (.error .isDirectory, t)
      else
        (if t.hasRoom (dir ++ [last]) bytes then .ok () else .error .noSpace,
          t.set dir last (.file (t.taken (dir ++ [last]) bytes)))

def fileBytes (t : FileTree) (p : Path) : Except DiskFault (List UInt8) := do
  match ← t.find p with
  | .file bytes => .ok bytes
  | .directory => .error .isDirectory

/-- A path with names joined to it one after the other. -/
def descend (p : Path) (names : Location) : Path :=
  names.foldl (fun q name => q.join ⟨name⟩) p

/-- The files at or below a path. A directory whose own path is too long is not entered. -/
def filesUnder (t : FileTree) (p : Path) : List Path :=
  match t.locate p with
  | .error _ => []
  | .ok top =>
    match t.lookup top with
    | none => []
    | some (.file _) => [p]
    | some .directory =>
      t.entries.filterMap fun (l, e) =>
        if e ≠ .directory ∧ top.isPrefixOf l then
          let names := l.drop top.length
          if (descend p names.dropLast).fault? = none then some (descend p names) else none
        else none

/-! ## A disk in a value -/

instance : Disk (StateM FileTree) where
  occupied p := fun t => (t.occupied p, t)
  createDirAll p := fun t => t.createDirAll p
  writeFile p bytes := fun t => t.writeFile p bytes
  fileBytes p := fun t => (t.fileBytes p, t)
  filesUnder p := fun t => (t.filesUnder p, t)

end FileTree

end DemoScaffold
