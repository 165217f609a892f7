import DemoScaffold.Proofs.FileTree.Creation
import DemoScaffold.Scaffold

/-!
# Writing files into a directory

Whether a file can be opened in a directory depends on its path and on what is found under its name, and
whether it can take its bytes depends on its location alone. Writing other files there changes neither,
so the files written are the longest beginning of the list that was acceptable from the start
(`writeFiles_eq`). The file that comes after them may have been opened and cut. What is found afterwards
under a name is what the last file opened with it has taken.
-/

namespace DemoScaffold

namespace Path

/-- The last segment of a path. -/
def lastSegment (p : Path) : String :=
  p.segments.getLast (segments_ne_nil p)

/-- The path of an entry of the directory that segments lead to. -/
structure LiesIn (p : Path) (before : List String) : Prop where
  segments : p.segments = before ++ [p.lastSegment]
  notIdle : isIdle p.lastSegment = false
  notUp : p.lastSegment ≠ ".."

variable {p : Path} {before : List String} {name : String}

theorem lastSegment_of_segments (h : p.segments = before ++ [name]) : p.lastSegment = name := by
  simp [lastSegment, h]

theorem liesIn_of_segments (h : p.segments = before ++ [name]) (hidle : isIdle name = false)
    (hup : name ≠ "..") : p.LiesIn before := by
  have hlast := lastSegment_of_segments h
  exact ⟨hlast ▸ h, hlast ▸ hidle, hlast ▸ hup⟩

/-- An entry of a directory has one path there. -/
theorem LiesIn.path_eq {q : Path} (hp : p.LiesIn before) (hq : q.LiesIn before)
    (h : p.lastSegment = q.lastSegment) : p = q := by
  have hsegments : p.segments = q.segments := by rw [hp.segments, hq.segments, h]
  have htext := congrArg joinSlash hsegments
  rw [joinSlash_segments, joinSlash_segments] at htext
  exact congrArg Path.mk htext

theorem LiesIn.ne (h : p.LiesIn before) : p.lastSegment ≠ "" ∧ p.lastSegment ≠ "." := by
  simpa [isIdle] using h.notIdle

end Path

namespace FileTree

variable {t u : FileTree} {dir l : Location} {before : List String} {p : Path} {bytes : List UInt8}
  {f : RenderedFile} {files : List RenderedFile}

/-! ## Room -/

/-- Wherever some bytes are written, there is room for all of them. -/
def RoomFor (t : FileTree) (bytes : List UInt8) : Prop :=
  ∀ l, t.hasRoom l bytes = true

theorem taken_of_hasRoom (h : t.hasRoom l bytes = true) : t.taken l bytes = bytes := by
  rw [hasRoom] at h
  rw [taken]
  cases hroom : t.room l with
  | none => simp
  | some n =>
      rw [hroom] at h
      exact List.take_of_length_le (by simpa using h)

theorem hasRoom_congr (h : t.room = u.room) : t.hasRoom = u.hasRoom := by
  funext l bytes
  rw [hasRoom, hasRoom, h]

theorem taken_congr (h : t.room = u.room) : t.taken = u.taken := by
  funext l bytes
  rw [taken, taken, h]

theorem RoomFor.of_room (h : t.RoomFor bytes) (hroom : u.room = t.room) : u.RoomFor bytes := by
  intro l
  rw [hasRoom_congr hroom]
  exact h l

/-- An empty tree has room for everything. -/
theorem roomFor_empty (bytes : List UInt8) : empty.RoomFor bytes :=
  fun _ => rfl

/-! ## One file -/

/-- Why a file cannot be opened in a directory. -/
def refusal? (t : FileTree) (dir : Location) (p : Path) : Option DiskFault :=
  match p.fault? with
  | some fault => some fault
  | none =>
    if 255 < p.lastSegment.utf8ByteSize then some .nameTooLong
    else if t.lookup (dir ++ [p.lastSegment]) = some .directory then some .isDirectory
    else none

theorem refusal?_eq_none_iff :
    t.refusal? dir p = none ↔ p.fault? = none ∧ p.lastSegment.utf8ByteSize ≤ 255 ∧
      t.lookup (dir ++ [p.lastSegment]) ≠ some .directory := by
  rw [refusal?]
  cases p.fault? with
  | some fault => simp
  | none =>
      by_cases hlong : 255 < p.lastSegment.utf8ByteSize
      · simp [hlong, Nat.not_le.mpr hlong]
      by_cases hdir : t.lookup (dir ++ [p.lastSegment]) = some .directory
      · simp [hlong, hdir]
      · simp [hlong, hdir, Nat.not_lt.mp hlong]

theorem refusal?_congr
    (h : t.lookup (dir ++ [p.lastSegment]) = some .directory ↔
      u.lookup (dir ++ [p.lastSegment]) = some .directory) :
    t.refusal? dir p = u.refusal? dir p := by
  simp only [refusal?, h]

theorem writeFile_eq (hp : p.LiesIn before) (hwalk : t.walk [] before = .ok dir)
    (hdir : t.lookup dir = some .directory) :
    t.writeFile p bytes =
      match t.refusal? dir p with
      | some fault => (.error fault, t)
      | none =>
        (if t.hasRoom (dir ++ [p.lastSegment]) bytes then .ok () else .error .noSpace,
          t.set dir p.lastSegment (.file (t.taken (dir ++ [p.lastSegment]) bytes))) := by
  rw [writeFile, refusal?, Path.target?_of_segments hp.segments hp.ne.1]
  cases p.fault? with
  | some fault => rfl
  | none =>
      have hholder : t.holder before = .ok dir := by
        rw [holder, hwalk]
        simp [bind, Except.bind, hdir]
      by_cases hlong : 255 < p.lastSegment.utf8ByteSize
      · simp [hholder, hp.ne.2, hp.notUp, hlong]
      by_cases hfound : t.lookup (dir ++ [p.lastSegment]) = some .directory
      · simp [hholder, hp.ne.2, hp.notUp, hlong, hfound]
      · simp [hholder, hp.ne.2, hp.notUp, hlong, hfound]

theorem canSet_of_refusal? (bytes : List UInt8) (hp : p.LiesIn before)
    (hdir : t.lookup dir = some .directory) (h : t.refusal? dir p = none) :
    t.CanSet dir p.lastSegment (.file bytes) := by
  obtain ⟨hfault, hshort, hfound⟩ := refusal?_eq_none_iff.mp h
  have hmem : p.lastSegment ∈ p.segments := by simp [Path.lastSegment]
  refine ⟨hdir, Path.isName_of_mem_segments hfault hmem ⟨hp.notIdle, hp.notUp, hshort⟩, ?_⟩
  cases hl : t.lookup (dir ++ [p.lastSegment]) with
  | none => exact .inl rfl
  | some e =>
      cases e with
      | directory => exact absurd hl hfound
      | file old => exact .inr ⟨⟨old, rfl⟩, bytes, rfl⟩

theorem lookup_set_file_eq_directory {name : String} :
    (t.set dir name (.file bytes)).lookup l = some .directory ↔ t.lookup l = some .directory := by
  constructor
  · intro h
    by_cases hset : t.CanSet dir name (.file bytes)
    · rw [lookup_set hset] at h
      split at h
      · cases h
      · exact h
    · rwa [set_of_not_canSet hset] at h
  · exact fun h => (Keeps.set t dir name (.file bytes)).directory h

theorem lookup_set_directory_eq_file {name : String} :
    (t.set dir name .directory).lookup l = some (.file bytes) ↔ t.lookup l = some (.file bytes) := by
  by_cases hset : t.CanSet dir name .directory
  · rw [lookup_set hset]
    split
    · rename_i hl
      obtain ⟨-, -, hnone | ⟨-, new, hnew⟩⟩ := hset
      · simp [hl, hnone]
      · cases hnew
    · rfl
  · rw [set_of_not_canSet hset]

theorem refusal?_set {name : String} :
    (t.set dir name (.file bytes)).refusal? dir p = t.refusal? dir p :=
  refusal?_congr lookup_set_file_eq_directory

/-- Why a file cannot be written into a directory: it cannot be opened, or there is no room for it. -/
def writeFault? (t : FileTree) (dir : Location) (f : RenderedFile) : Option DiskFault :=
  match t.refusal? dir f.path with
  | some fault => some fault
  | none => if t.hasRoom (dir ++ [f.path.lastSegment]) f.bytes then none else some .noSpace

theorem writeFault?_eq_none_iff :
    t.writeFault? dir f = none ↔
      t.refusal? dir f.path = none ∧ t.hasRoom (dir ++ [f.path.lastSegment]) f.bytes = true := by
  rw [writeFault?]
  cases t.refusal? dir f.path <;> simp

theorem writeFault?_congr (hrefusal : t.refusal? dir f.path = u.refusal? dir f.path)
    (hroom : t.room = u.room) : t.writeFault? dir f = u.writeFault? dir f := by
  rw [writeFault?, writeFault?, hrefusal, hasRoom_congr hroom]

/-- The tree with what a directory takes of a file. -/
def setFile (t : FileTree) (dir : Location) (f : RenderedFile) : FileTree :=
  t.set dir f.path.lastSegment (.file (t.taken (dir ++ [f.path.lastSegment]) f.bytes))

theorem Keeps.setFile (t : FileTree) (dir : Location) (f : RenderedFile) : t.Keeps (t.setFile dir f) :=
  Keeps.set t dir _ _

/-! ## One file after the other -/

/-- The tree with what a directory takes of some files. -/
def setFiles (t : FileTree) (dir : Location) : List RenderedFile → FileTree
  | [] => t
  | f :: rest => (t.setFile dir f).setFiles dir rest

/-- The files in front of the first one that cannot be written. -/
def accepted (t : FileTree) (dir : Location) : List RenderedFile → List RenderedFile
  | [] => []
  | f :: rest => if t.writeFault? dir f = none then f :: t.accepted dir rest else []

/-- The files that are opened: those that are written, and the one after them if there is no room for
it. -/
def opened (t : FileTree) (dir : Location) : List RenderedFile → List RenderedFile
  | [] => []
  | f :: rest =>
    if t.refusal? dir f.path = none then
      f :: if t.writeFault? dir f = none then t.opened dir rest else []
    else []

/-- The failure to write the first file that cannot be written. -/
def failure? (t : FileTree) (dir : Location) : List RenderedFile → Option ToolError
  | [] => none
  | f :: rest =>
    match t.writeFault? dir f with
    | some fault => some (.writeFailed f.path fault)
    | none => t.failure? dir rest

/-- What is written in a directory, and where that stops, depends on what its paths are refused and on
the room that there is. -/
theorem writing_congr (hroom : t.room = u.room)
    (h : ∀ f ∈ files, t.refusal? dir f.path = u.refusal? dir f.path) :
    t.accepted dir files = u.accepted dir files ∧ t.opened dir files = u.opened dir files ∧
      t.failure? dir files = u.failure? dir files := by
  induction files with
  | nil => exact ⟨rfl, rfl, rfl⟩
  | cons f rest ih =>
      obtain ⟨hf, hrest⟩ := List.forall_mem_cons.mp h
      obtain ⟨haccepted, hopened, hfailure⟩ := ih hrest
      simp only [accepted, opened, failure?, writeFault?_congr hf hroom, hf, haccepted, hopened,
        hfailure, and_self]

theorem writing_setFile (t : FileTree) (dir : Location) (f : RenderedFile) (files : List RenderedFile) :
    (t.setFile dir f).accepted dir files = t.accepted dir files ∧
      (t.setFile dir f).opened dir files = t.opened dir files ∧
      (t.setFile dir f).failure? dir files = t.failure? dir files :=
  writing_congr (room_set t dir _ _) fun _ _ => refusal?_set

theorem accepted_isPrefix (t : FileTree) (dir : Location) (files : List RenderedFile) :
    t.accepted dir files <+: files := by
  induction files with
  | nil => exact List.prefix_refl []
  | cons f rest ih =>
      rw [accepted]
      split
      · exact (List.prefix_cons_inj f).mpr ih
      · exact List.nil_prefix

/-- The files that are opened are those that are written, or one more, which is cut and is the one that
fails. -/
theorem opened_cases (t : FileTree) (dir : Location) (files : List RenderedFile) :
    t.opened dir files = t.accepted dir files ∨
      ∃ f ∈ files, t.opened dir files = t.accepted dir files ++ [f] ∧
        t.failure? dir files = some (.writeFailed f.path .noSpace) := by
  induction files with
  | nil => exact .inl rfl
  | cons f rest ih =>
      rw [accepted, opened, failure?, writeFault?]
      cases hrefusal : t.refusal? dir f.path with
      | some fault => exact .inl (by simp)
      | none =>
          cases hroom : t.hasRoom (dir ++ [f.path.lastSegment]) f.bytes with
          | false => exact .inr ⟨f, List.mem_cons_self, by simp, by simp⟩
          | true =>
              rcases ih with heq | ⟨g, hg, heq, hfailure⟩
              · exact .inl (by simp [heq])
              · exact .inr ⟨g, List.mem_cons_of_mem f hg, by simp [heq], by simpa using hfailure⟩

theorem writeFault?_of_mem_accepted (h : f ∈ t.accepted dir files) : t.writeFault? dir f = none := by
  induction files with
  | nil => cases h
  | cons g rest ih =>
      rw [accepted] at h
      split at h
      · rename_i hg
        rcases List.mem_cons.mp h with rfl | hrest
        · exact hg
        · exact ih hrest
      · cases h

theorem mem_of_mem_opened (h : f ∈ t.opened dir files) :
    f ∈ files ∧ t.refusal? dir f.path = none := by
  induction files with
  | nil => cases h
  | cons g rest ih =>
      rw [opened] at h
      split at h
      · rename_i hg
        rcases List.mem_cons.mp h with rfl | hrest
        · exact ⟨List.mem_cons_self, hg⟩
        · split at hrest
          · exact (ih hrest).imp (List.mem_cons_of_mem g) id
          · cases hrest
      · cases h

theorem Keeps.setFiles (t : FileTree) (dir : Location) (files : List RenderedFile) :
    t.Keeps (t.setFiles dir files) := by
  induction files generalizing t with
  | nil => exact Keeps.refl t
  | cons f rest ih => exact (Keeps.setFile t dir f).trans (ih _)

theorem writeFiles_cons (manifest : Manifest) (f : RenderedFile) (rest : List RenderedFile)
    (t : FileTree) :
    writeFiles (m := StateM FileTree) manifest (f :: rest) t =
      match t.writeFile f.path f.bytes with
      | (.error fault, u) => ((manifest, some (.writeFailed f.path fault)), u)
      | (.ok (), u) => writeFiles (m := StateM FileTree) (manifest.push f.path) rest u := by
  simp only [writeFiles, bind, StateT.bind, Disk.writeFile]
  rcases t.writeFile f.path f.bytes with ⟨fault | _, u⟩ <;> rfl

/-- What becomes of the directory of a scaffold decides whether its files are written. -/
theorem writeScaffold_of_createDirAll (p : Path) (files : List RenderedFile) (manifest : Manifest)
    (t : FileTree) :
    writeScaffold (m := StateM FileTree) p files manifest t =
      match t.createDirAll p with
      | (.error fault, u) => ((manifest, some (.writeFailed p fault)), u)
      | (.ok (), u) => writeFiles (m := StateM FileTree) manifest files u := by
  simp only [writeScaffold, bind, StateT.bind, Disk.createDirAll]
  rcases t.createDirAll p with ⟨fault | _, u⟩ <;> rfl

/-- Files in a directory are written up to the first one that cannot be, and whether one can be is
settled before the first is written. -/
theorem writeFiles_eq {manifest : Manifest} (hfiles : ∀ f ∈ files, f.path.LiesIn before)
    (hwalk : t.walk [] before = .ok dir) (hdir : t.lookup dir = some .directory) :
    writeFiles (m := StateM FileTree) manifest files t =
      ((⟨manifest.paths ++ (t.accepted dir files).map RenderedFile.path⟩, t.failure? dir files),
        t.setFiles dir (t.opened dir files)) := by
  induction files generalizing t manifest with
  | nil =>
      rw [accepted, List.map_nil, List.append_nil]
      rfl
  | cons f rest ih =>
      obtain ⟨hf, hrest⟩ := List.forall_mem_cons.mp hfiles
      rw [writeFiles_cons, writeFile_eq hf hwalk hdir, accepted, opened, failure?, writeFault?]
      cases hrefusal : t.refusal? dir f.path with
      | some fault => simp [setFiles]
      | none =>
          cases hroom : t.hasRoom (dir ++ [f.path.lastSegment]) f.bytes with
          | false => simp [setFiles, setFile]
          | true =>
              have hk := Keeps.setFile t dir f
              obtain ⟨haccepted, hopened, hfailure⟩ := writing_setFile t dir f rest
              simp only [if_true]
              rw [← setFile, ih hrest (hk.walk hwalk) (hk.directory hdir), haccepted, hopened, hfailure]
              simp [Manifest.push, setFiles]

/-- What the files leave at a location of the directory: what has been taken of the last one opened
there. -/
def leftAt (t : FileTree) (dir l : Location) : List RenderedFile → Option Entry
  | [] => none
  | f :: rest =>
    (t.leftAt dir l rest).or
      (if l = dir ++ [f.path.lastSegment] then some (.file (t.taken l f.bytes)) else none)

theorem leftAt_congr (h : t.room = u.room) : t.leftAt dir l files = u.leftAt dir l files := by
  induction files with
  | nil => rfl
  | cons f rest ih => rw [leftAt, leftAt, ih, taken_congr h]

theorem lookup_setFiles (hfiles : ∀ f ∈ files, f.path.LiesIn before ∧ t.refusal? dir f.path = none)
    (hdir : t.lookup dir = some .directory) (l : Location) :
    (t.setFiles dir files).lookup l = (t.leftAt dir l files).or (t.lookup l) := by
  induction files generalizing t with
  | nil => rfl
  | cons f rest ih =>
      obtain ⟨⟨hlies, hrefusal⟩, hrest⟩ := List.forall_mem_cons.mp hfiles
      have hset := canSet_of_refusal? (t.taken (dir ++ [f.path.lastSegment]) f.bytes) hlies hdir hrefusal
      have hk := Keeps.setFile t dir f
      have hrest' : ∀ g ∈ rest, g.path.LiesIn before ∧ (t.setFile dir f).refusal? dir g.path = none :=
        fun g hg => ⟨(hrest g hg).1, refusal?_set.trans (hrest g hg).2⟩
      rw [setFiles, ih hrest' (hk.directory hdir), leftAt_congr hk.room, setFile, lookup_set hset, leftAt,
        Option.or_assoc]
      split
      · rename_i hl
        simp [hl]
      · simp

theorem leftAt_append (xs ys : List RenderedFile) :
    t.leftAt dir l (xs ++ ys) = (t.leftAt dir l ys).or (t.leftAt dir l xs) := by
  induction xs with
  | nil => simp [leftAt]
  | cons f rest ih => rw [List.cons_append, leftAt, ih, leftAt, Option.or_assoc]

theorem leftAt_eq_none (h : ∀ f ∈ files, l ≠ dir ++ [f.path.lastSegment]) :
    t.leftAt dir l files = none := by
  induction files with
  | nil => rfl
  | cons f rest ih =>
      obtain ⟨hf, hrest⟩ := List.forall_mem_cons.mp h
      rw [leftAt, ih hrest, if_neg hf]
      rfl

theorem leftAt_ne_none (t : FileTree) (dir : Location) (h : f ∈ files) :
    t.leftAt dir (dir ++ [f.path.lastSegment]) files ≠ none := by
  induction files with
  | nil => cases h
  | cons g rest ih =>
      rw [leftAt]
      rcases List.mem_cons.mp h with rfl | hrest
      · simp
      · simp [ih hrest]

/-- What is left at a location is what has been taken of the last file that was opened there. -/
theorem split_of_leftAt {e : Entry} (h : t.leftAt dir l files = some e) :
    ∃ before f after, files = before ++ f :: after ∧ l = dir ++ [f.path.lastSegment] ∧
      e = .file (t.taken l f.bytes) ∧ ∀ g ∈ after, l ≠ dir ++ [g.path.lastSegment] := by
  induction files generalizing e with
  | nil => cases h
  | cons f rest ih =>
      rw [leftAt] at h
      cases hrest : t.leftAt dir l rest with
      | some e' =>
          rw [hrest] at h
          cases h
          obtain ⟨before, g, after, rfl, hg⟩ := ih hrest
          exact ⟨f :: before, g, after, rfl, hg⟩
      | none =>
          rw [hrest, Option.none_or] at h
          obtain ⟨hl, he⟩ := Option.ite_none_right_eq_some.mp h
          refine ⟨[], f, rest, rfl, hl, (Option.some.inj he).symm, ?_⟩
          rintro g hg rfl
          exact leftAt_ne_none t dir hg hrest

/-- What the written files leave at a location is what all that are opened leave there, unless the one that
has been cut lies there too. -/
theorem leftAt_opened (t : FileTree) (dir l : Location) (files : List RenderedFile) :
    t.leftAt dir l (t.opened dir files) = t.leftAt dir l (t.accepted dir files) ∨
      ∃ f ∈ files, l = dir ++ [f.path.lastSegment] ∧
        t.failure? dir files = some (.writeFailed f.path .noSpace) := by
  rcases t.opened_cases dir files with heq | ⟨f, hf, heq, hfailure⟩
  · exact .inl (by rw [heq])
  · by_cases hl : l = dir ++ [f.path.lastSegment]
    · exact .inr ⟨f, hf, hl, hfailure⟩
    · have hnone : t.leftAt dir l [f] = none := leftAt_eq_none (List.forall_mem_singleton.mpr hl)
      exact .inl (by rw [heq, leftAt_append, hnone, Option.none_or])

theorem accepted_isPrefix_opened (t : FileTree) (dir : Location) (files : List RenderedFile) :
    t.accepted dir files <+: t.opened dir files := by
  rcases t.opened_cases dir files with heq | ⟨f, -, heq, -⟩
  · exact heq ▸ List.prefix_refl _
  · exact heq ▸ List.prefix_append _ _

theorem exists_of_leftAt {e : Entry} (h : t.leftAt dir l files = some e) :
    ∃ f ∈ files, l = dir ++ [f.path.lastSegment] := by
  obtain ⟨before, f, after, rfl, hl, -⟩ := split_of_leftAt h
  exact ⟨f, by simp, hl⟩

/-! ## Writing again -/

theorem lookup_setFiles_eq_directory :
    (t.setFiles dir files).lookup l = some .directory ↔ t.lookup l = some .directory := by
  induction files generalizing t with
  | nil => rfl
  | cons f rest ih => exact ih.trans lookup_set_file_eq_directory

theorem places_setFiles (h : ∀ f ∈ files, t.lookup (dir ++ [f.path.lastSegment]) ≠ none) :
    (t.setFiles dir files).places = t.places := by
  induction files generalizing t with
  | nil => rfl
  | cons f rest ih =>
      obtain ⟨hf, hrest⟩ := List.forall_mem_cons.mp h
      have hk := Keeps.setFile t dir f
      have hrest' : ∀ g ∈ rest, (t.setFile dir f).lookup (dir ++ [g.path.lastSegment]) ≠ none :=
        fun g hg =>
          Option.isSome_iff_ne_none.mp (hk.isSome (Option.isSome_iff_ne_none.mpr (hrest g hg)))
      rw [setFiles, ih hrest', setFile, places_set hf]

theorem refusal?_again
    (h : ∀ name, u.lookup (dir ++ [name]) = (t.setFiles dir files).lookup (dir ++ [name])) :
    u.refusal? dir p = t.refusal? dir p :=
  refusal?_congr (by rw [h, lookup_setFiles_eq_directory])

/-- Files that are in a directory as they were left there are not changed by writing them again. -/
theorem setFiles_again (hfiles : ∀ f ∈ files, f.path.LiesIn before ∧ t.refusal? dir f.path = none)
    (hdir : t.lookup dir = some .directory) (hk : (t.setFiles dir files).Keeps u)
    (h : ∀ name, u.lookup (dir ++ [name]) = (t.setFiles dir files).lookup (dir ++ [name])) :
    u.setFiles dir files = u := by
  have hkept := (Keeps.setFiles t dir files).trans hk
  have hsame : ∀ l, u.leftAt dir l files = t.leftAt dir l files := fun l => leftAt_congr hkept.room
  have hleft : ∀ {l e}, t.leftAt dir l files = some e → u.lookup l = some e := by
    intro l e hl
    obtain ⟨f, -, rfl⟩ := exists_of_leftAt hl
    rw [h, lookup_setFiles hfiles hdir, hl]
    rfl
  refine ext_lookup (places_setFiles fun f hf => ?_) (fun l => ?_) (Keeps.setFiles u dir files).room
  · obtain ⟨e, he⟩ := Option.ne_none_iff_exists'.mp (leftAt_ne_none t dir hf)
    simp [hleft he]
  · rw [lookup_setFiles (fun f hf => ⟨(hfiles f hf).1, (refusal?_again h).trans (hfiles f hf).2⟩)
      (hkept.directory hdir), hsame]
    cases hl : t.leftAt dir l files with
    | none => rfl
    | some e => exact (hleft hl).symm

/-! ## A directory with its files -/

/-- The files of a scaffold that are written. -/
def scaffoldFiles (t : FileTree) (p : Path) (files : List RenderedFile) : List RenderedFile :=
  match t.settle p with
  | (some dir, u) => u.accepted dir files
  | (none, _) => []

/-- Whether a scaffold cannot be fully written. -/
def scaffoldFails (t : FileTree) (p : Path) (files : List RenderedFile) : Bool :=
  match t.settle p with
  | (some dir, u) => (u.failure? dir files).isSome
  | (none, _) => true

/-- The tree after writing a scaffold. -/
def scaffoldTree (t : FileTree) (p : Path) (files : List RenderedFile) : FileTree :=
  match t.settle p with
  | (some dir, u) => u.setFiles dir (u.opened dir files)
  | (none, u) => u

/-- The failure of a scaffold is that of its directory, or that of the first file that cannot be written
there. -/
def StopsWith (t : FileTree) (p : Path) (files : List RenderedFile) (failure : Option ToolError) :
    Prop :=
  match t.settle p with
  | (some dir, u) => failure = u.failure? dir files
  | (none, _) => ∃ fault, failure = some (.writeFailed p fault)

theorem StopsWith.isSome {failure : Option ToolError} (h : t.StopsWith p files failure) :
    failure.isSome = t.scaffoldFails p files := by
  rcases hsettle : t.settle p with ⟨_ | dir, u⟩ <;>
    simp only [StopsWith, scaffoldFails, hsettle] at h ⊢
  · obtain ⟨fault, rfl⟩ := h
    rfl
  · rw [h]

theorem writeScaffold_eq (hp : p.LiesIn before) (hfiles : ∀ f ∈ files, f.path.LiesIn p.segments) :
    ∃ failure, t.StopsWith p files failure ∧ ∀ manifest : Manifest,
      writeScaffold (m := StateM FileTree) p files manifest t =
        ((⟨manifest.paths ++ (t.scaffoldFiles p files).map RenderedFile.path⟩, failure),
          t.scaffoldTree p files) := by
  have hagrees := createDirAll_agrees (t := t) hp.segments hp.notIdle
  simp only [writeScaffold_of_createDirAll, scaffoldFiles, StopsWith, scaffoldTree]
  rcases hmade : t.createDirAll p with ⟨fault | _, made⟩ <;> rw [hmade] at hagrees <;>
    obtain ⟨hanswer, rfl⟩ := hagrees <;> rcases hsettle : t.settle p with ⟨_ | dir, u⟩ <;>
    rw [hsettle] at hanswer
  · exact ⟨some (.writeFailed p fault), ⟨fault, rfl⟩, fun manifest => by simp⟩
  · cases hanswer
  · cases hanswer
  · have hend : (t.settle p).1 = some dir := by rw [hsettle]
    have hwalk := walk_of_settle hend
    have hdir := lookup_of_settle hend
    rw [hsettle] at hwalk hdir
    exact ⟨u.failure? dir files, rfl, fun manifest => writeFiles_eq hfiles hwalk hdir⟩

theorem keeps_settle_scaffoldTree (t : FileTree) (p : Path) (files : List RenderedFile) :
    (t.settle p).2.Keeps (t.scaffoldTree p files) := by
  rw [scaffoldTree]
  rcases t.settle p with ⟨_ | dir, u⟩
  · exact Keeps.refl u
  · exact Keeps.setFiles u dir _

theorem Keeps.scaffoldTree (t : FileTree) (p : Path) (files : List RenderedFile) :
    t.Keeps (t.scaffoldTree p files) :=
  (Keeps.settle t p).trans (keeps_settle_scaffoldTree t p files)

end FileTree

end DemoScaffold
