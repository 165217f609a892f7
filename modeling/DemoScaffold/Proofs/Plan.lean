import DemoScaffold.Proofs.DemoModule
import DemoScaffold.Proofs.FileTree.Writing
import DemoScaffold.Proofs.Path.Components
import DemoScaffold.Run

/-!
# Plans

Where a plan puts its files: a key names an entry of the root, and a file name without slashes an entry
of the directory of its module. A plan can be rendered exactly if all its templates can; otherwise it
fails like the first one that cannot.
-/

namespace DemoScaffold

/-! ## Keys -/

namespace DemoModule

/-- What begins with a key is no segment with a meaning of its own. -/
theorem notIdle_key_append (m : DemoModule) (s : String) :
    Path.isIdle (m.key ++ s) = false ∧ m.key ++ s ≠ ".." := by
  have hchars := m.isKeyChar_of_mem
  cases hkey : m.key.toList with
  | nil => exact absurd (String.toList_eq_nil_iff.mp hkey) m.key_ne_empty
  | cons first rest =>
      have hdot : first ≠ '.' := by
        rintro rfl
        exact absurd (hchars '.' (by simp [hkey])) (by decide)
      have htext : ∀ text : String, m.key ++ s = text → text.toList.head? = some first := by
        rintro _ rfl
        simp [hkey]
      refine ⟨?_, fun hup => hdot ?_⟩
      · simp only [Path.isIdle, Bool.or_eq_false_iff, decide_eq_false_iff_not]
        exact ⟨fun h => by simpa using htext _ h, fun h => hdot (by simpa using (htext _ h).symm)⟩
      · simpa using (htext _ hup).symm

end DemoModule

/-! ## Paths of a plan -/

namespace Plan

variable {root : Path} {set : TemplateSet} {m : DemoModule} {b : Bindings} {p : Plan}
  {files : List RenderedFile} {e : ToolError}

theorem segments_directory (root : Path) (m : DemoModule) (set : TemplateSet) :
    (ofModule root m set).directory.segments = root.base ++ [m.key] :=
  Path.segments_join_name root m.slash_notMem_key

theorem liesIn_directory (root : Path) (m : DemoModule) (set : TemplateSet) :
    (ofModule root m set).directory.LiesIn root.base := by
  obtain ⟨hidle, hup⟩ := m.notIdle_key_append ""
  rw [String.append_empty] at hidle hup
  exact Path.liesIn_of_segments (segments_directory root m set) hidle hup

theorem components_directory (root : Path) (m : DemoModule) (set : TemplateSet) :
    (ofModule root m set).directory.components = root.components ++ [.normal m.key] := by
  obtain ⟨hidle, hup⟩ := m.notIdle_key_append ""
  rw [String.append_empty] at hidle hup
  exact Path.components_join_proper root ⟨m.slash_notMem_key, hidle, hup⟩

theorem fileName?_directory (root : Path) (m : DemoModule) (set : TemplateSet) :
    (ofModule root m set).directory.fileName? = some m.key := by
  rw [Path.fileName?, components_directory, List.getLast?_concat]

theorem lastSegment_directory (root : Path) (m : DemoModule) (set : TemplateSet) :
    (ofModule root m set).directory.lastSegment = m.key :=
  Path.lastSegment_of_segments (segments_directory root m set)

theorem slash_notMem_fileName (hset : ∀ x ∈ set.templates, '/' ∉ x.suffix.toList)
    {file : PlannedFile} (h : file ∈ (ofModule root m set).files) : '/' ∉ file.fileName.toList := by
  obtain ⟨x, hx, rfl⟩ := List.mem_map.mp h
  simp [m.slash_notMem_key, hset x hx]

theorem segments_path (hset : ∀ x ∈ set.templates, '/' ∉ x.suffix.toList)
    {file : PlannedFile} (h : file ∈ (ofModule root m set).files) :
    ((ofModule root m set).path file).segments =
      (ofModule root m set).directory.segments ++ [file.fileName] := by
  have hbase : (ofModule root m set).directory.base = (ofModule root m set).directory.segments := by
    rw [segments_directory]
    exact Path.base_join_name root m.slash_notMem_key m.key_ne_empty
  rw [path, Path.segments_join_name _ (slash_notMem_fileName hset h), hbase]

theorem lastSegment_path (hset : ∀ x ∈ set.templates, '/' ∉ x.suffix.toList)
    {file : PlannedFile} (h : file ∈ (ofModule root m set).files) :
    ((ofModule root m set).path file).lastSegment = file.fileName :=
  Path.lastSegment_of_segments (segments_path hset h)

/-- A file whose suffix has no slash lies in the directory of its module. -/
theorem liesIn_path (hset : ∀ x ∈ set.templates, '/' ∉ x.suffix.toList) {path : Path}
    (h : path ∈ (ofModule root m set).paths) :
    path.LiesIn (ofModule root m set).directory.segments := by
  obtain ⟨file, hfile, rfl⟩ := List.mem_map.mp h
  have hsegments := segments_path hset hfile
  obtain ⟨x, hx, rfl⟩ := List.mem_map.mp hfile
  obtain ⟨hidle, hup⟩ := m.notIdle_key_append ("." ++ x.suffix)
  rw [← String.append_assoc] at hidle hup
  exact Path.liesIn_of_segments hsegments hidle hup

theorem key_eq_of_mem_paths {n : DemoModule} (hset : ∀ x ∈ set.templates, '/' ∉ x.suffix.toList)
    {path : Path} (hm : path ∈ (ofModule root m set).paths) (hn : path ∈ (ofModule root n set).paths) :
    m.key = n.key := by
  have hsame := (liesIn_path hset hm).segments.symm.trans (liesIn_path hset hn).segments
  have hdirectory := (List.append_inj' hsame rfl).1
  rw [segments_directory, segments_directory] at hdirectory
  simpa using hdirectory

/-! ## Directories apart -/

theorem key_eq_of_isWithin {n : DemoModule} {other : TemplateSet} {p : Path}
    (hm : p.IsWithin (ofModule root m set).directory)
    (hn : p.IsWithin (ofModule root n other).directory) : m.key = n.key := by
  rw [Path.IsWithin, components_directory] at hm hn
  have hsame := (List.prefix_of_prefix_length_le hm hn (by simp)).eq_of_length (by simp)
  simpa using hsame

/-- The directory of a module is the entry of the root that its key names. So modules with different keys
have directories apart: they differ, neither lies in the other, and no path lies in both. -/
theorem directories_apart (root : Path) (m : DemoModule) (set : TemplateSet) :
    (ofModule root m set).directory.components = root.components ++ [.normal m.key] ∧
    ∀ (n : DemoModule) (other : TemplateSet), m.key ≠ n.key →
      (ofModule root m set).directory.components ≠ (ofModule root n other).directory.components ∧
      ¬ (ofModule root m set).directory.IsWithin (ofModule root n other).directory ∧
      ¬ (ofModule root n other).directory.IsWithin (ofModule root m set).directory ∧
      ∀ p : Path, p.IsWithin (ofModule root m set).directory →
        ¬ p.IsWithin (ofModule root n other).directory := by
  refine ⟨components_directory root m set, fun n other hkeys => ?_⟩
  have hapart : ∀ p : Path, p.IsWithin (ofModule root m set).directory →
      ¬ p.IsWithin (ofModule root n other).directory :=
    fun p hm hn => hkeys (key_eq_of_isWithin hm hn)
  have hm : ¬ (ofModule root m set).directory.IsWithin (ofModule root n other).directory :=
    hapart _ (Path.isWithin_self _)
  have hn : ¬ (ofModule root n other).directory.IsWithin (ofModule root m set).directory :=
    fun h => hapart _ h (Path.isWithin_self _)
  refine ⟨fun hsame => hm ?_, hm, hn, hapart⟩
  simp only [Path.IsWithin, hsame, List.prefix_rfl]

/-- A key that another one begins with, below a root that leads up and has slashes and dots too many. -/
theorem rains_apart :
    (⟨"a//./b/../rains/rains.cpp"⟩ : Path).IsWithin
      (ofModule ⟨"a//./b/../"⟩ ⟨"rains", "Rains", by decide⟩ ⟨[], by decide⟩).directory ∧
    ¬ (⟨"a//./b/../rains/rains.cpp"⟩ : Path).IsWithin
      (ofModule ⟨"a//./b/../"⟩ ⟨"rain", "Rain", by decide⟩ ⟨[], by decide⟩).directory := by
  have hkeys : "rains" ≠ "rain" := by decide
  have hwithin : (⟨"a//./b/../rains/rains.cpp"⟩ : Path).IsWithin
      (ofModule ⟨"a//./b/../"⟩ ⟨"rains", "Rains", by decide⟩ ⟨[], by decide⟩).directory := by
    decide
  obtain ⟨-, hapart⟩ := directories_apart ⟨"a//./b/../"⟩ ⟨"rains", "Rains", by decide⟩ ⟨[], by decide⟩
  exact ⟨hwithin, (hapart ⟨"rain", "Rain", by decide⟩ ⟨[], by decide⟩ hkeys).2.2.2 _ hwithin⟩

/-! ## Rendering -/

/-- A planned file and what it is rendered to. -/
def Renders (p : Plan) (b : Bindings) (file : PlannedFile) (f : RenderedFile) : Prop :=
  f.path = p.path file ∧ file.template.render b = .ok f.contents

theorem render_eq_mapM (p : Plan) (b : Bindings) :
    p.render b = p.files.mapM fun file => (file.template.render b).map (RenderedFile.mk (p.path file)) := by
  refine congrArg p.files.mapM (funext fun file => ?_)
  cases file.template.render b <;> rfl

theorem render_eq_ok_iff : p.render b = .ok files ↔ List.Forall₂ (p.Renders b) p.files files := by
  have hfile : ∀ file f,
      (file.template.render b).map (RenderedFile.mk (p.path file)) = .ok f ↔ p.Renders b file f := by
    rintro file ⟨path, s⟩
    rw [Renders]
    cases file.template.render b <;> simp [Except.map, eq_comm]
  rw [render_eq_mapM, mapM_eq_ok_iff]
  simp only [hfile]

theorem paths_of_renders {planned : List PlannedFile} (h : List.Forall₂ (p.Renders b) planned files) :
    files.map RenderedFile.path = planned.map p.path := by
  induction h with
  | nil => rfl
  | cons hf rest ih => rw [List.map_cons, List.map_cons, hf.1, ih]

theorem paths_of_render (h : p.render b = .ok files) : files.map RenderedFile.path = p.paths :=
  paths_of_renders (render_eq_ok_iff.mp h)

theorem liesIn_of_render (hset : ∀ x ∈ set.templates, '/' ∉ x.suffix.toList)
    (h : (ofModule root m set).render b = .ok files) :
    ∀ f ∈ files, f.path.LiesIn (ofModule root m set).directory.segments := by
  intro f hf
  refine liesIn_path hset ?_
  rw [← paths_of_render h]
  exact List.mem_map_of_mem hf

theorem exists_map_eq_ok_iff {file : PlannedFile} :
    (∃ f, (file.template.render b).map (RenderedFile.mk (p.path file)) = .ok f) ↔
      ∃ s, file.template.render b = .ok s := by
  cases file.template.render b <;> simp [Except.map]

theorem exists_render_iff :
    (∃ files, p.render b = .ok files) ↔ ∀ file ∈ p.files, ∃ s, file.template.render b = .ok s := by
  rw [render_eq_mapM, exists_mapM_eq_ok_iff]
  simp only [exists_map_eq_ok_iff]

theorem exists_render_ofModule_iff (root : Path) (m : DemoModule) (set : TemplateSet) :
    (∃ files, (ofModule root m set).render m.bindings = .ok files) ↔
      ∀ x ∈ set.templates, ∃ s, x.render m.bindings = .ok s := by
  rw [exists_render_iff]
  simp [ofModule]

/-- A plan fails like the first of its templates that fails. -/
theorem render_eq_error_iff :
    p.render b = .error e ↔
      ∃ before file after, p.files = before ++ file :: after ∧
        (∀ x ∈ before, ∃ s, x.template.render b = .ok s) ∧ file.template.render b = .error e := by
  have hfile : ∀ file : PlannedFile,
      (file.template.render b).map (RenderedFile.mk (p.path file)) = .error e ↔
        file.template.render b = .error e := by
    intro file
    cases file.template.render b <;> simp [Except.map]
  rw [render_eq_mapM, mapM_eq_error_iff]
  simp only [exists_map_eq_ok_iff, hfile]

theorem render_ofModule_eq_error_iff (root : Path) (m : DemoModule) (set : TemplateSet) :
    (ofModule root m set).render m.bindings = .error e ↔
      ∃ before x after, set.templates = before ++ x :: after ∧
        (∀ y ∈ before, ∃ s, y.render m.bindings = .ok s) ∧ x.render m.bindings = .error e := by
  rw [render_eq_error_iff]
  constructor
  · rintro ⟨before, file, after, hsplit, hbefore, hfile⟩
    obtain ⟨xs, ys, hxs, rfl, hys⟩ := List.map_eq_append_iff.mp hsplit
    obtain ⟨x, zs, rfl, rfl, -⟩ := List.map_eq_cons_iff.mp hys
    refine ⟨xs, x, zs, hxs, fun y hy => ?_, hfile⟩
    exact hbefore ⟨m.key ++ "." ++ y.suffix, y⟩ (List.mem_map_of_mem hy)
  · rintro ⟨before, x, after, hsplit, hbefore, hx⟩
    let planned (y : Template) : PlannedFile := ⟨m.key ++ "." ++ y.suffix, y⟩
    have hfiles : (ofModule root m set).files = before.map planned ++ planned x :: after.map planned := by
      rw [ofModule, hsplit, List.map_append, List.map_cons]
    refine ⟨before.map planned, planned x, after.map planned, hfiles, fun file hfile => ?_, hx⟩
    obtain ⟨y, hy, rfl⟩ := List.mem_map.mp hfile
    exact hbefore y hy

end Plan

end DemoScaffold
