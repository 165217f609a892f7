import DemoScaffold.Proofs.FileTree.Writing

/-!
# What writing changes

Creating a directory and writing files change a tree only where they say so: a file is new or has other
bytes only where a written path leads, and a directory is new only where a beginning of the created path
leads. A file that fails to be written has not been touched, or it has been cut (`writeFile_cases`); this
is the one failure that there is no space, and where there is room for the bytes it does not occur.
-/

namespace DemoScaffold

namespace Path

theorem eq_concat_of_dropWhile {before : List String} {last : String} {xs : List String}
    (h : xs.reverse.dropWhile (· = "") = last :: before) (hlast : xs.reverse.head? ≠ some "") :
    xs = before.reverse ++ [last] := by
  cases hxs : xs.reverse with
  | nil =>
      rw [hxs] at h
      cases h
  | cons x rest =>
      rw [hxs] at h hlast
      have hx : x ≠ "" := by simpa using hlast
      rw [List.dropWhile_cons_of_neg (by simpa using hx)] at h
      cases h
      simpa using congrArg List.reverse hxs

theorem segments_of_target? {p : Path} {before : List String} {last : String}
    (h : p.target? = some (before, last, false)) : p.segments = before ++ [last] := by
  rw [target?] at h
  split at h
  · cases h
  · rename_i last' before' hdrop
    simp only [Option.some.injEq, Prod.mk.injEq, decide_eq_false_iff_not] at h
    obtain ⟨rfl, rfl, hslash⟩ := h
    exact eq_concat_of_dropWhile hdrop hslash

theorem target?_ne_empty {p : Path} {before : List String} {last : String} {slash : Bool}
    (h : p.target? = some (before, last, slash)) : last ≠ "" := by
  rw [target?] at h
  split at h
  · cases h
  · rename_i last' before' hdrop
    simp only [Option.some.injEq, Prod.mk.injEq] at h
    obtain ⟨-, rfl, -⟩ := h
    have hhead := List.head?_dropWhile_not (· = "") p.segments.reverse
    rw [hdrop] at hhead
    simpa using hhead

end Path

/-- The path of a file that has been opened and could not take all its bytes, if that is the failure. -/
def ToolError.cut? : ToolError → Option Path
  | .writeFailed path fault => if fault = .noSpace then some path else none
  | _ => none

namespace FileTree

variable {t u v : FileTree} {written written' directories directories' : List Path}
  {here l : Location} {segments : List String} {p : Path} {bytes : List UInt8}
  {f : RenderedFile} {files done rest : List RenderedFile} {failure : Option ToolError}

/-! ## Changes -/

/-- What changes when files are written at some paths and directories are created. Nothing is lost; a
file is new or has other bytes only where a written path leads, and a directory is new only where the
beginning of a created one leads. -/
structure ChangesOnly (written directories : List Path) (t u : FileTree) : Prop where
  keeps : t.Keeps u
  file : ∀ {l bytes}, u.lookup l = some (.file bytes) → t.lookup l ≠ some (.file bytes) →
    ∃ p ∈ written, u.locate p = .ok l
  directory : ∀ {l}, u.lookup l = some .directory → t.lookup l ≠ some .directory →
    ∃ d ∈ directories, ∃ p : Path, p.segments <+: d.segments ∧ u.locate p = .ok l

theorem Keeps.locate (hk : t.Keeps u) (h : t.locate p = .ok l) : u.locate p = .ok l := by
  rw [locate_of_fault?_eq_none (fault?_of_locate h)]
  exact hk.walk (walk_of_locate h)

theorem ChangesOnly.refl (t : FileTree) : ChangesOnly [] [] t t :=
  ⟨Keeps.refl t, fun hu ht => absurd hu ht, fun hu ht => absurd hu ht⟩

/-- It can be said of more paths that they may have been written. -/
theorem ChangesOnly.mono (h : ChangesOnly written directories t u) (hsub : written ⊆ written') :
    ChangesOnly written' directories t u := by
  refine ⟨h.keeps, fun hu ht => ?_, h.directory⟩
  obtain ⟨p, hp, hlocate⟩ := h.file hu ht
  exact ⟨p, hsub hp, hlocate⟩

theorem ChangesOnly.trans (h₁ : ChangesOnly written directories t u)
    (h₂ : ChangesOnly written' directories' u v) :
    ChangesOnly (written ++ written') (directories ++ directories') t v := by
  refine ⟨h₁.keeps.trans h₂.keeps, fun {l bytes} hv ht => ?_, fun {l} hv ht => ?_⟩
  · by_cases hu : u.lookup l = some (.file bytes)
    · obtain ⟨p, hp, hlocate⟩ := h₁.file hu ht
      exact ⟨p, List.mem_append_left _ hp, h₂.keeps.locate hlocate⟩
    · obtain ⟨p, hp, hlocate⟩ := h₂.file hv hu
      exact ⟨p, List.mem_append_right _ hp, hlocate⟩
  · by_cases hu : u.lookup l = some .directory
    · obtain ⟨d, hd, p, hbefore, hlocate⟩ := h₁.directory hu ht
      exact ⟨d, List.mem_append_left _ hd, p, hbefore, h₂.keeps.locate hlocate⟩
    · obtain ⟨d, hd, p, hbefore, hlocate⟩ := h₂.directory hv hu
      exact ⟨d, List.mem_append_right _ hd, p, hbefore, hlocate⟩

/-! ## Files -/

theorem holder_cases {before : List String} {dir : Location} (h : t.holder before = .ok dir) :
    t.walk [] before = .ok dir ∧ t.lookup dir = some .directory := by
  rw [holder] at h
  cases hwalk : t.walk [] before with
  | error fault =>
      rw [hwalk] at h
      cases h
  | ok l =>
      simp only [hwalk, bind, Except.bind] at h
      split at h
      · cases h
        exact ⟨rfl, by assumption⟩
      · cases h
      · cases h

/-- What writing does that opens its file: the path leads to a place, which now holds what has been taken
of the bytes, and nothing else has changed. -/
structure Opens (t : FileTree) (p : Path) (bytes : List UInt8) (place : Location) (u : FileTree) :
    Prop where
  keeps : t.Keeps u
  locate : u.locate p = .ok place
  lookup : ∀ l, u.lookup l = if l = place then some (.file (t.taken place bytes)) else t.lookup l

/-- The file that a path leads to has been opened, and there was no room in it for all its bytes. -/
def Cut (t : FileTree) (p : Path) (bytes : List UInt8) (u : FileTree) : Prop :=
  ∃ place, t.Opens p bytes place u ∧ t.hasRoom place bytes = false

/-- A file is not opened, and then nothing has changed; or it is opened at the place that its path leads to
afterwards, and then only the room there decides how it ends. -/
theorem writeFile_cases (t : FileTree) (p : Path) (bytes : List UInt8) :
    (∃ fault, fault ≠ .noSpace ∧ t.writeFile p bytes = (.error fault, t)) ∨
      ∃ place u, t.writeFile p bytes =
          (if t.hasRoom place bytes then .ok () else .error .noSpace, u) ∧
        t.Opens p bytes place u := by
  rw [writeFile]
  cases hfault : p.fault? with
  | some fault =>
      refine .inl ⟨fault, ?_, rfl⟩
      rintro rfl
      exact p.fault?_ne_noSpace hfault
  | none =>
      rcases htarget : p.target? with _ | ⟨before, last, slash⟩
      · exact .inl ⟨.isDirectory, by simp, rfl⟩
      simp only
      cases hholder : t.holder before with
      | error fault =>
          refine .inl ⟨fault, ?_, rfl⟩
          rintro rfl
          exact holder_ne_noSpace hholder
      | ok dir =>
          simp only
          by_cases hlast : last = "." ∨ last = ".." ∨ slash = true
          · exact .inl ⟨.isDirectory, by simp, by rw [if_pos hlast]⟩
          by_cases hlong : 255 < last.utf8ByteSize
          · exact .inl ⟨.nameTooLong, by simp, by rw [if_neg hlast, if_pos hlong]⟩
          by_cases hfound : t.lookup (dir ++ [last]) = some .directory
          · exact .inl ⟨.isDirectory, by simp, by rw [if_neg hlast, if_neg hlong, if_pos hfound]⟩
          rw [if_neg hlast, if_neg hlong, if_neg hfound]
          obtain ⟨hdot, hup, hslash⟩ : last ≠ "." ∧ last ≠ ".." ∧ slash = false := by
            simpa using hlast
          subst hslash
          obtain ⟨hwalk, hdir⟩ := holder_cases hholder
          have hsegments := Path.segments_of_target? htarget
          have hidle : Path.isIdle last = false := by
            simp [Path.isIdle, Path.target?_ne_empty htarget, hdot]
          have hdown : leadsDown last := ⟨hidle, hup, Nat.not_lt.mp hlong⟩
          have hlies := Path.liesIn_of_segments hsegments hidle hup
          have hrefusal : t.refusal? dir p = none := by
            rw [refusal?_eq_none_iff, Path.lastSegment_of_segments hsegments]
            exact ⟨hfault, hdown.2.2, hfound⟩
          have hset := canSet_of_refusal? (t.taken (dir ++ [last]) bytes) hlies hdir hrefusal
          rw [Path.lastSegment_of_segments hsegments] at hset
          have hk := Keeps.set t dir last (.file (t.taken (dir ++ [last]) bytes))
          refine .inr ⟨dir ++ [last], _, rfl, hk, ?_, lookup_set hset⟩
          rw [locate_of_fault?_eq_none hfault, hsegments, walk_append, hk.walk hwalk]
          change walk _ dir [last] = _
          rw [walk_singleton, step_of_leadsDown (hk.directory hdir) hdown, lookup_set hset]
          simp

theorem writeFile_of_ok (h : t.writeFile p bytes = (.ok (), u)) :
    ∃ place, t.Opens p bytes place u ∧ t.taken place bytes = bytes := by
  rcases writeFile_cases t p bytes with ⟨fault, -, hwrite⟩ | ⟨place, v, hwrite, hopens⟩
  · rw [hwrite] at h
    cases h
  · cases hroom : t.hasRoom place bytes with
    | false => simp [hwrite, hroom] at h
    | true =>
        obtain rfl : v = u := by simpa [hwrite, hroom] using h
        exact ⟨place, hopens, taken_of_hasRoom hroom⟩

/-- A file that has not been written is as it was, or it has been cut, for which there is one failure. -/
theorem writeFile_of_error {fault : DiskFault} (h : t.writeFile p bytes = (.error fault, u)) :
    fault ≠ .noSpace ∧ u = t ∨ fault = .noSpace ∧ t.Cut p bytes u := by
  rcases writeFile_cases t p bytes with ⟨fault', hfault, hwrite⟩ | ⟨place, v, hwrite, hopens⟩
  · rw [hwrite] at h
    cases h
    exact .inl ⟨hfault, rfl⟩
  · cases hroom : t.hasRoom place bytes with
    | false =>
        obtain ⟨rfl, rfl⟩ : .noSpace = fault ∧ v = u := by simpa [hwrite, hroom] using h
        exact .inr ⟨rfl, place, hopens, hroom⟩
    | true => simp [hwrite, hroom] at h

theorem Opens.changesOnly {place : Location} (h : t.Opens p bytes place u) : ChangesOnly [p] [] t u := by
  refine ⟨h.keeps, fun {l bytes'} hu ht => ?_, fun {l} hu ht => ?_⟩ <;> rw [h.lookup] at hu <;>
    split at hu
  · rename_i hl
    exact ⟨p, List.mem_singleton_self p, hl ▸ h.locate⟩
  · exact absurd hu ht
  · cases hu
  · exact absurd hu ht

/-! ## Files one after the other -/

/-- Files are written one after the other and no write fails. -/
inductive WritesAll : FileTree → List RenderedFile → FileTree → Prop where
  | nil {t : FileTree} : WritesAll t [] t
  | cons {t u v : FileTree} {f : RenderedFile} {rest : List RenderedFile}
      (hwrite : t.writeFile f.path f.bytes = (.ok (), u)) (hrest : WritesAll u rest v) :
      WritesAll t (f :: rest) v

/-- How writing files can end: with all of them, or at the first one that cannot be written to the tree
that those before it have left. -/
inductive FilesEnd (t : FileTree) (files : List RenderedFile) :
    List RenderedFile → Option ToolError → FileTree → Prop where
  | complete {u : FileTree} (hall : t.WritesAll files u) : FilesEnd t files files none u
  | stopped {u v : FileTree} {done rest : List RenderedFile} {f : RenderedFile} {fault : DiskFault}
      (hfiles : files = done ++ f :: rest) (hdone : t.WritesAll done u)
      (hfault : u.writeFile f.path f.bytes = (.error fault, v)) :
      FilesEnd t files done (some (.writeFailed f.path fault)) v

theorem FilesEnd.cons (hwrite : t.writeFile f.path f.bytes = (.ok (), u))
    (h : u.FilesEnd rest done failure v) : t.FilesEnd (f :: rest) (f :: done) failure v := by
  cases h with
  | complete hall => exact .complete (.cons hwrite hall)
  | stopped hfiles hdone hfault =>
      exact .stopped (by rw [hfiles, List.cons_append]) (.cons hwrite hdone) hfault

/-- What the manifest lists already makes no difference to what is written. -/
theorem writeFiles_ends (files : List RenderedFile) (t : FileTree) :
    ∃ done failure u, t.FilesEnd files done failure u ∧ ∀ manifest,
      writeFiles (m := StateM FileTree) manifest files t =
        ((⟨manifest.paths ++ done.map RenderedFile.path⟩, failure), u) := by
  induction files generalizing t with
  | nil => exact ⟨[], none, t, .complete .nil, fun manifest => by rw [List.map_nil, List.append_nil]; rfl⟩
  | cons f rest ih =>
      rcases hwrite : t.writeFile f.path f.bytes with ⟨fault | _, u⟩
      · refine ⟨[], _, u, .stopped rfl .nil hwrite, fun manifest => ?_⟩
        rw [writeFiles_cons, hwrite, List.map_nil, List.append_nil]
      · obtain ⟨done, failure, v, hend, hrest⟩ := ih u
        refine ⟨f :: done, failure, v, hend.cons hwrite, fun manifest => ?_⟩
        rw [writeFiles_cons, hwrite]
        simp [hrest, Manifest.push]

theorem WritesAll.changesOnly (h : t.WritesAll files u) :
    ChangesOnly (files.map RenderedFile.path) [] t u := by
  induction h with
  | nil => exact ChangesOnly.refl _
  | cons hwrite _ ih =>
      obtain ⟨place, hopens, -⟩ := writeFile_of_ok hwrite
      exact hopens.changesOnly.trans ih

/-- Apart from the files that are written, only one that is cut has changed. -/
theorem FilesEnd.changesOnly (h : t.FilesEnd files done failure u) :
    ChangesOnly (done.map RenderedFile.path ++ (failure.bind ToolError.cut?).toList) [] t u := by
  cases h with
  | complete hall =>
      rw [Option.bind_none, Option.toList_none, List.append_nil]
      exact hall.changesOnly
  | stopped hfiles hdone hfault =>
      rcases writeFile_of_error hfault with ⟨-, rfl⟩ | ⟨rfl, place, hopens, -⟩
      · exact hdone.changesOnly.mono (List.subset_append_left _ _)
      · exact hdone.changesOnly.trans hopens.changesOnly

theorem WritesAll.keeps (h : t.WritesAll files u) : t.Keeps u :=
  h.changesOnly.keeps

end FileTree

end DemoScaffold
