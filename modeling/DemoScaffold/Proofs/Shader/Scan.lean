import DemoScaffold.Proofs.FileTree.Descent
import DemoScaffold.Shader.Scan

/-!
# What a scan reports

A scan reports every shader file at or below its root once, in the order of the paths, with the flagged
lines of its text, and nothing else. In which order the walk of the directories finds the files makes no
difference: it is left open here (`walkedBy`).
-/

namespace DemoScaffold

namespace FileTree

variable {t : FileTree} {p : Path} {l : Location} {bytes : List UInt8}

/-! ## Shader files -/

/-- A regular file whose name has the extension of shaders: it ends with a dot and `hlsl`, and something
stands before the dot. -/
structure IsShaderFile (t : FileTree) (l : Location) (bytes : List UInt8) : Prop where
  file : t.lookup l = some (.file bytes)
  named : ∃ dir stem, stem ≠ "" ∧ l = dir ++ [stem ++ ".hlsl"]

/-- Whether a file is a shader can be seen from any path that leads to it. -/
theorem isShader_iff (h : t.locate p = .ok l) (hfile : t.lookup l = some (.file bytes)) :
    isShader p = true ↔ t.IsShaderFile l bytes := by
  obtain ⟨dir, name, rfl, hname⟩ := fileName?_of_locate h hfile
  have hdot (stem : String) : stem ++ "." ++ "hlsl" = stem ++ ".hlsl" := String.append_assoc
  rw [isShader, decide_eq_true_iff, Path.extension?_eq_some_iff hname]
  constructor
  · rintro ⟨-, stem, hstem, rfl⟩
    exact ⟨hfile, dir, stem, hstem, by rw [hdot]⟩
  · rintro ⟨-, dir', stem, hstem, heq⟩
    obtain ⟨-, hlast⟩ := List.append_inj' heq rfl
    obtain ⟨hname', -⟩ := List.cons.inj hlast
    exact ⟨by decide, stem, hstem, hname'.trans (hdot stem).symm⟩

end FileTree

/-! ## Walks in any order -/

/-- Computations on a tree whose walks find the files as `walk` says. -/
def WalkedBy (_walk : FileTree → Path → List Path) (α : Type) : Type :=
  StateM FileTree α

namespace WalkedBy

variable {walk : FileTree → Path → List Path} {α β : Type}

instance : Monad (WalkedBy walk) :=
  inferInstanceAs (Monad (StateM FileTree))

instance : Disk (WalkedBy walk) :=
  { (inferInstance : Disk (StateM FileTree)) with filesUnder := fun p t => (walk t p, t) }

def run (x : WalkedBy walk α) (t : FileTree) : α × FileTree :=
  x t

@[simp] theorem run_pure (a : α) (t : FileTree) : (pure a : WalkedBy walk α).run t = (a, t) := rfl

@[simp] theorem run_bind (x : WalkedBy walk α) (f : α → WalkedBy walk β) (t : FileTree) :
    (x >>= f).run t = (f (x.run t).1).run (x.run t).2 := rfl

@[simp] theorem run_occupied (p : Path) (t : FileTree) :
    (Disk.occupied p : WalkedBy walk Bool).run t = (t.occupied p, t) := rfl

@[simp] theorem run_fileBytes (p : Path) (t : FileTree) :
    (Disk.fileBytes p : WalkedBy walk (Except DiskFault (List UInt8))).run t = (t.fileBytes p, t) := rfl

@[simp] theorem run_filesUnder (p : Path) (t : FileTree) :
    (Disk.filesUnder p : WalkedBy walk (List Path)).run t = (walk t p, t) := rfl

end WalkedBy

namespace FileTree

variable {t : FileTree} {p root : Path} {top l : Location} {bytes : List UInt8}
  {walk : FileTree → Path → List Path} {hits : List ShaderHit}

/-- The scan of a tree whose walks find the files as `walk` says. -/
def scanTreeBy (walk : FileTree → Path → List Path) (t : FileTree) (root : Path) :
    Except ToolError (List ShaderHit) × FileTree :=
  (scanTree root : WalkedBy walk _).run t

theorem scanTreeBy_filesUnder (t : FileTree) (root : Path) :
    t.scanTreeBy filesUnder root = (scanTree root : StateM FileTree _) t := rfl

/-- The hit of a file that can be read. -/
def hitAt (t : FileTree) (p : Path) : ShaderHit :=
  ⟨p, scanBytes ((t.fileBytes p).toOption.getD [])⟩

theorem fileBytes_of_locate (h : t.locate p = .ok l) (hfile : t.lookup l = some (.file bytes)) :
    t.fileBytes p = .ok bytes := by
  simp [fileBytes, find, h, hfile, bind, Except.bind]

theorem hitAt_of_fileBytes (h : t.fileBytes p = .ok bytes) : t.hitAt p = ⟨p, scanBytes bytes⟩ := by
  rw [hitAt, h]
  rfl

theorem scanFiles_of_readable {files : List Path} (h : ∀ p ∈ files, ∃ bytes, t.fileBytes p = .ok bytes) :
    (scanFiles files : WalkedBy walk _).run t = ((files.map t.hitAt, none), t) := by
  induction files with
  | nil => rfl
  | cons p rest ih =>
      obtain ⟨⟨bytes, hbytes⟩, hrest⟩ := List.forall_mem_cons.mp h
      rw [scanFiles, WalkedBy.run_bind, WalkedBy.run_fileBytes, hbytes]
      simp [ih hrest, hitAt_of_fileBytes hbytes]

theorem occupied_of_locate (h : t.locate root = .ok top) : t.occupied root = true := by
  obtain ⟨e, he⟩ := Option.ne_none_iff_exists'.mp (lookup_of_locate h)
  simp [occupied, find, h, he, bind, Except.bind, Except.isOk, Except.toBool]

theorem occupied_eq_false_iff : t.occupied root = false ↔ ∀ top, t.locate root ≠ .ok top := by
  constructor
  · intro h top htop
    simp [occupied_of_locate htop] at h
  · intro h
    cases hlocate : t.locate root with
    | ok top => exact absurd hlocate (h top)
    | error fault => simp [occupied, find, hlocate, bind, Except.bind, Except.isOk, Except.toBool]

theorem scanTreeBy_of_missing (walk : FileTree → Path → List Path) (h : t.occupied root = false) :
    t.scanTreeBy walk root = (.error (.inputNotFound root), t) := by
  simp [scanTreeBy, scanTree, scanShaders, h]

theorem scanTreeBy_of_readable (h : t.occupied root = true)
    (hread : ∀ p ∈ ((walk t root).filter isShader).mergeSort Path.le, ∃ bytes, t.fileBytes p = .ok bytes) :
    t.scanTreeBy walk root =
      (.ok ((((walk t root).filter isShader).mergeSort Path.le).map t.hitAt), t) := by
  simp [scanTreeBy, scanTree, scanShaders, h, scanFiles_of_readable hread]

theorem readable_of_scanFiles {walk : FileTree → Path → List Path} {files : List Path}
    (h : ((scanFiles files : WalkedBy walk _).run t).1 = (hits, none)) :
    ∀ p ∈ files, ∃ bytes, t.fileBytes p = .ok bytes := by
  induction files generalizing hits with
  | nil => simp
  | cons p rest ih =>
      rw [scanFiles, WalkedBy.run_bind, WalkedBy.run_fileBytes] at h
      cases hbytes : t.fileBytes p with
      | error fault => simp [hbytes] at h
      | ok bytes =>
          rcases hrest : (scanFiles rest : WalkedBy walk _).run t with ⟨⟨more, failure⟩, u⟩
          simp only [hbytes, WalkedBy.run_bind, hrest, WalkedBy.run_pure, Prod.mk.injEq] at h
          rw [hrest, h.2] at ih
          exact List.forall_mem_cons.mpr ⟨⟨bytes, hbytes⟩, ih rfl⟩

/-- The shader files that a scan reads, in their order. -/
def shaders (t : FileTree) (root : Path) : List Path :=
  ((t.filesUnder root).filter isShader).mergeSort Path.le

/-- A scan that ends with a report has read all shader files. -/
theorem scanTree_eq_ok_iff :
    (scanTree root : StateM FileTree _) t = (.ok hits, t) ↔ t.occupied root = true ∧
      (∀ p ∈ t.shaders root, ∃ bytes, t.fileBytes p = .ok bytes) ∧
      hits = (t.shaders root).map t.hitAt := by
  rw [← scanTreeBy_filesUnder]
  constructor
  · intro h
    cases hroot : t.occupied root with
    | false =>
        rw [scanTreeBy_of_missing _ hroot] at h
        cases h
    | true =>
        have hread : ∀ p ∈ t.shaders root, ∃ bytes, t.fileBytes p = .ok bytes := by
          rcases hfiles : (scanFiles (t.shaders root) : WalkedBy filesUnder _).run t with
            ⟨⟨found, _ | e⟩, u⟩
          · exact readable_of_scanFiles (by rw [hfiles])
          · rw [shaders] at hfiles
            simp only [scanTreeBy, scanTree, scanShaders, WalkedBy.run_bind, WalkedBy.run_occupied, hroot,
              if_true, WalkedBy.run_filesUnder, hfiles, WalkedBy.run_pure] at h
            cases h
        rw [scanTreeBy_of_readable hroot hread, Prod.mk.injEq, Except.ok.injEq] at h
        exact ⟨rfl, hread, h.1.symm⟩
  · rintro ⟨hroot, hread, rfl⟩
    exact scanTreeBy_of_readable hroot hread

/-! ## Reports -/

/-- The hits are those of the shader files at or below `top`, the place that `root` leads to: one for each
of them, in the order of the paths. -/
structure Reports (t : FileTree) (root : Path) (top : Location) (hits : List ShaderHit) : Prop where
  ordered : hits.Pairwise fun a b => a.path.key < b.path.key
  exact : ∀ hit ∈ hits, ∃ names bytes, t.IsShaderFile (top ++ names) bytes ∧
    hit = ⟨descend root names, (scanText (Text.Utf8.decodeLossy bytes)).map String.ofList⟩
  complete : ∀ names bytes, t.IsShaderFile (top ++ names) bytes →
    ∃! hit, hit ∈ hits ∧ t.locate hit.path = .ok (top ++ names)

variable {files : List Path}

theorem readable_of_perm (hlimit : t.WithinLimit root) (htop : t.locate root = .ok top)
    (hfiles : files.Perm (t.filesUnder root)) : ∀ p ∈ files, ∃ bytes, t.fileBytes p = .ok bytes := by
  intro p hp
  obtain ⟨names, bytes, hfile, rfl⟩ := (mem_filesUnder hlimit htop).mp (hfiles.mem_iff.mp hp)
  exact ⟨bytes, fileBytes_of_locate (locate_descend hlimit htop hfile) hfile⟩

theorem mem_shaders (hlimit : t.WithinLimit root) (htop : t.locate root = .ok top)
    (hfiles : files.Perm (t.filesUnder root)) :
    p ∈ (files.filter isShader).mergeSort Path.le ↔
      ∃ names bytes, t.IsShaderFile (top ++ names) bytes ∧ p = descend root names := by
  rw [List.mem_mergeSort, List.mem_filter, hfiles.mem_iff, mem_filesUnder hlimit htop]
  constructor
  · rintro ⟨⟨names, bytes, hfile, rfl⟩, hshader⟩
    have hlocate := locate_descend hlimit htop hfile
    exact ⟨names, bytes, (isShader_iff hlocate hfile).mp hshader, rfl⟩
  · rintro ⟨names, bytes, hshader, rfl⟩
    have hlocate := locate_descend hlimit htop hshader.file
    exact ⟨⟨names, bytes, hshader.file, rfl⟩, (isShader_iff hlocate hshader.file).mpr hshader⟩

theorem nodup_shaders (hfiles : files.Perm (t.filesUnder root)) :
    ((files.filter isShader).map Path.key).Nodup :=
  (((hfiles.map Path.key).nodup_iff.mpr (nodup_filesUnder t root))).sublist
    (List.filter_sublist.map Path.key)

theorem hitAt_descend {names : List String} (hlimit : t.WithinLimit root)
    (htop : t.locate root = .ok top) (h : t.IsShaderFile (top ++ names) bytes) :
    t.hitAt (descend root names) = ⟨descend root names, scanBytes bytes⟩ :=
  hitAt_of_fileBytes (fileBytes_of_locate (locate_descend hlimit htop h.file) h.file)

theorem reports_of_perm (hlimit : t.WithinLimit root) (htop : t.locate root = .ok top)
    (hfiles : files.Perm (t.filesUnder root)) :
    t.Reports root top (((files.filter isShader).mergeSort Path.le).map t.hitAt) := by
  have hexact : ∀ hit ∈ ((files.filter isShader).mergeSort Path.le).map t.hitAt, ∃ names bytes,
      t.IsShaderFile (top ++ names) bytes ∧ hit = ⟨descend root names, scanBytes bytes⟩ := by
    intro hit hhit
    obtain ⟨p, hp, rfl⟩ := List.mem_map.mp hhit
    obtain ⟨names, bytes, hshader, rfl⟩ := (mem_shaders hlimit htop hfiles).mp hp
    exact ⟨names, bytes, hshader, hitAt_descend hlimit htop hshader⟩
  refine ⟨?_, hexact, fun names bytes hshader => ?_⟩
  · exact List.pairwise_map.mpr (Path.pairwise_mergeSort_lt (nodup_shaders hfiles))
  · have hlocate := locate_descend hlimit htop hshader.file
    refine ⟨t.hitAt (descend root names), ⟨List.mem_map.mpr ⟨_, ?_, rfl⟩, hlocate⟩, ?_⟩
    · exact (mem_shaders hlimit htop hfiles).mpr ⟨names, bytes, hshader, rfl⟩
    · rintro hit ⟨hhit, hto⟩
      obtain ⟨others, bytes', hother, rfl⟩ := hexact hit hhit
      rw [locate_descend hlimit htop hother.file, Except.ok.injEq,
        List.append_cancel_left_eq] at hto
      subst hto
      exact (hitAt_descend hlimit htop hother).symm

/-- In whatever order the walk finds the files, the hits are those of the tree's own walk. -/
theorem scanTreeBy_of_perm (hlimit : t.WithinLimit root) (htop : t.locate root = .ok top)
    (hwalk : (walk t root).Perm (t.filesUnder root)) :
    t.scanTreeBy walk root =
      (.ok ((((t.filesUnder root).filter isShader).mergeSort Path.le).map t.hitAt), t) := by
  have hnodup := nodup_shaders (List.Perm.refl (t.filesUnder root))
  have hread : ∀ p ∈ ((walk t root).filter isShader).mergeSort Path.le,
      ∃ bytes, t.fileBytes p = .ok bytes := fun p hp =>
    readable_of_perm hlimit htop hwalk p (List.mem_of_mem_filter (List.mem_mergeSort.mp hp))
  rw [scanTreeBy_of_readable (occupied_of_locate htop) hread,
    Path.mergeSort_eq_of_perm hnodup (hwalk.filter isShader)]

/-- A scan reports that its root is missing, or every shader file at or below it once. Nothing depends on
the order in which the walk finds the files, and the tree stays as it is. -/
theorem scanTree_exact (hlimit : t.WithinLimit root)
    (hwalk : (walk t root).Perm (t.filesUnder root)) :
    t.scanTreeBy walk root = (scanTree root : StateM FileTree _) t ∧
      ((t.scanTreeBy walk root).1 = .error (.inputNotFound root) ↔ ∀ top, t.locate root ≠ .ok top) ∧
      ∀ top, t.locate root = .ok top →
        ∃ hits, t.scanTreeBy walk root = (.ok hits, t) ∧ t.Reports root top hits := by
  rw [← scanTreeBy_filesUnder]
  by_cases hroot : ∃ top, t.locate root = .ok top
  · obtain ⟨top, htop⟩ := hroot
    have hscan := scanTreeBy_of_perm hlimit htop hwalk
    have hown := scanTreeBy_of_perm hlimit htop (List.Perm.refl (t.filesUnder root))
    refine ⟨hscan.trans hown.symm, iff_of_false (by simp [hscan]) fun h => h top htop, ?_⟩
    intro top' htop'
    cases htop.symm.trans htop'
    exact ⟨_, hscan, reports_of_perm hlimit htop (List.Perm.refl _)⟩
  · have hnone : ∀ top, t.locate root ≠ .ok top := fun top htop => hroot ⟨top, htop⟩
    have hscan (walk : FileTree → Path → List Path) :=
      scanTreeBy_of_missing walk (occupied_eq_false_iff.mpr hnone)
    refine ⟨(hscan walk).trans (hscan filesUnder).symm, iff_of_true (by rw [hscan]) hnone, ?_⟩
    intro top htop
    exact absurd htop (hnone top)

/-- A tree with two shaders, one of them in a directory that is named like one, a file that has no stem
and a file with a longer extension. -/
def shaderTree : FileTree where
  entries := [(["src"], .directory), (["src", "b.hlsl"], .file [70, 61]), (["src", ".hlsl"], .file []),
    (["src", "a.hlsl"], .directory), (["src", "a.hlsl", "c.hlsl"], .file [0xFF]),
    (["src", "a.hlsli"], .file [])]
  room := fun _ => none
  distinct := by decide
  named := by decide
  inDirectory := by decide

theorem scanTree_backwards : ∃ hits,
    shaderTree.scanTreeBy (fun t p => (t.filesUnder p).reverse) ⟨"src"⟩ = (.ok hits, shaderTree) ∧
      shaderTree.Reports ⟨"src"⟩ ["src"] hits := by
  have htop : shaderTree.locate ⟨"src"⟩ = .ok ["src"] := by decide
  have hlimit : shaderTree.WithinLimit ⟨"src"⟩ := withinLimit_of_entries htop (by decide)
  exact (scanTree_exact hlimit (List.reverse_perm _)).2.2 ["src"] htop

end FileTree

end DemoScaffold
