import DemoScaffold.Proofs.Run.Accounting
import DemoScaffold.Proofs.Run.Changes
import DemoScaffold.Proofs.Run.Siblings
import Mathlib.Data.List.Forall2

/-!
# What the manifest lists

The paths in the manifest of a run are the regular files that its modules have left, each with the text
of the last template that its module has written under that name. Later modules do not change them, and
a later failure does only if it is that there was no room for another file of the same name.
-/

namespace DemoScaffold

variable {t u : FileTree} {root : Path} {set : TemplateSet} {report last : Report} {m : DemoModule}
  {modules : List DemoModule} {files : List RenderedFile} {b : Bindings}

/-- The planned files of a module that are in the manifest: as many of its plan, from the first on, as
paths of the plan are listed. -/
def Report.writtenFiles (r : Report) (root : Path) (set : TemplateSet) (m : DemoModule) :
    List PlannedFile :=
  (Plan.ofModule root m set).files.take (r.pathsOf root set m).length

/-! ## Blocks of the manifest -/

/-- A list of rendered files that is split is rendered from a list that is split alike. -/
theorem Plan.split_of_renders {p : Plan} {planned : List PlannedFile} {before after : List RenderedFile}
    {g : RenderedFile} (h : List.Forall₂ (p.Renders b) planned (before ++ g :: after)) :
    ∃ front file back, planned = front ++ file :: back ∧ p.Renders b file g ∧
      List.Forall₂ (p.Renders b) back after := by
  have hdrop := List.forall₂_drop_append planned before (g :: after) h
  cases hback : planned.drop before.length with
  | nil =>
      rw [hback] at hdrop
      cases hdrop
  | cons file back =>
      rw [hback] at hdrop
      cases hdrop with
      | cons hfile hrest =>
          refine ⟨planned.take before.length, file, back, ?_, hfile, hrest⟩
          rw [← hback, List.take_append_drop]

theorem exists_render_of_runModules
    (h : (t.runModules root set report modules).1 = .ok last) (hm : m ∈ modules) :
    ∃ files, (Plan.ofModule root m set).render m.bindings = .ok files := by
  induction modules generalizing t report with
  | nil => cases hm
  | cons n rest ih =>
      cases hrender : (Plan.ofModule root n set).render n.bindings with
      | error e =>
          rw [FileTree.runModules_cons_of_error hrender] at h
          cases h
      | ok files =>
          rcases List.mem_cons.mp hm with rfl | hrest
          · exact ⟨files, hrender⟩
          · rw [FileTree.runModules_cons_of_ok hrender] at h
            generalize t.writeScaffold (Plan.ofModule root n set).directory files report.manifest =
              step at h
            exact ih h hrest

/-! ## Files on the disk -/

namespace FileTree

variable {top l : Location} {names : List String} {path p : Path} {base : List String}
  {bytes : List UInt8}

theorem find_of_lookup (hfault : path.fault? = none) (hsegments : path.segments = base ++ names)
    (hpaved : t.pave [] base = (some top, t)) (h : t.lookup (top ++ names) = some (.file bytes)) :
    t.find path = .ok (.file bytes) := by
  have hend : (t.pave [] base).1 = some top := by rw [hpaved]
  have hwalk := walk_of_pave (lookup_nil_isSome t) hend (Keeps.refl _)
  rw [hpaved] at hwalk
  rw [find, locate_of_fault?_eq_none hfault, hsegments, walk_append, hwalk]
  change ((t.walk top names).bind fun l => _) = _
  rw [walk_names (by simp [h])]
  simp [Except.bind, h]

/-- What writing files into a directory leaves under the name of one that has been written is the text of
the last of them with that name, unless the writing has stopped at a file of this name that has been
cut. -/
theorem lookup_written {dir : Location} {before : List String}
    (hfiles : ∀ f ∈ files, f.path.LiesIn before) (hdir : t.lookup dir = some .directory) {f : RenderedFile}
    (hf : f ∈ t.accepted dir files) :
    ∃ (front : List RenderedFile) (g : RenderedFile) (back : List RenderedFile) (bytes : List UInt8),
      t.accepted dir files = front ++ g :: back ∧ g.path.lastSegment = f.path.lastSegment ∧
      (∀ g' ∈ back, g'.path.lastSegment ≠ f.path.lastSegment) ∧
      (t.setFiles dir (t.opened dir files)).lookup (dir ++ [f.path.lastSegment]) = some (.file bytes) ∧
      ((t.failure? dir files).bind ToolError.cut? ≠ some f.path → bytes = g.bytes) := by
  have hopened := (t.accepted_isPrefix_opened dir files).subset hf
  obtain ⟨bytes, he⟩ : ∃ bytes,
      t.leftAt dir (dir ++ [f.path.lastSegment]) (t.opened dir files) = some (.file bytes) := by
    obtain ⟨e, he⟩ := Option.ne_none_iff_exists'.mp (leftAt_ne_none t dir hopened)
    obtain ⟨-, g, -, -, -, rfl, -⟩ := split_of_leftAt he
    exact ⟨_, he⟩
  obtain ⟨e', he'⟩ := Option.ne_none_iff_exists'.mp (leftAt_ne_none t dir hf)
  obtain ⟨front, g, back, hsplit, hg, rfl, hlast⟩ := split_of_leftAt he'
  refine ⟨front, g, back, bytes, hsplit, by simpa using hg.symm, fun g' hg' hname => ?_, ?_, fun hcut => ?_⟩
  · exact hlast g' hg' (by rw [hname])
  · rw [lookup_setFiles (opened_liesIn hfiles) hdir, he, Option.some_or]
  · have hmem : g ∈ t.accepted dir files := by simp [hsplit]
    have hroom := (writeFault?_eq_none_iff.mp (writeFault?_of_mem_accepted hmem)).2
    rw [← hg] at hroom
    rcases t.leftAt_opened dir _ files with hsame | ⟨h, hh, hname, hfailure⟩
    · rw [he, he', taken_of_hasRoom hroom] at hsame
      simpa using hsame
    · have hlies := hfiles f ((accepted_isPrefix t dir files).subset hf)
      have hpath : h.path = f.path := (hfiles h hh).path_eq hlies (by simpa using hname.symm)
      rw [hfailure, hpath] at hcut
      exact absurd rfl hcut

/-- A file of a scaffold is found in a later tree as the scaffold has left it. -/
theorem find_of_scaffold (hp : p.LiesIn base) (hfiles : ∀ f ∈ files, f.path.LiesIn p.segments)
    (halike : AlikeAt base p.lastSegment (t.scaffoldTree p files) u)
    (hpaved : p.fault? = none → (u.pave [] base).2 = u) {failure : Option ToolError}
    (hstops : t.StopsWith p files failure) {f : RenderedFile} (hf : f ∈ t.scaffoldFiles p files) :
    ∃ (before : List RenderedFile) (g : RenderedFile) (after : List RenderedFile) (bytes : List UInt8),
      t.scaffoldFiles p files = before ++ g :: after ∧ g.path.lastSegment = f.path.lastSegment ∧
      (∀ g' ∈ after, g'.path.lastSegment ≠ f.path.lastSegment) ∧
      u.find f.path = .ok (.file bytes) ∧
      (failure.bind ToolError.cut? ≠ some f.path → bytes = g.bytes) := by
  rw [scaffoldFiles] at hf ⊢
  rw [scaffoldTree] at halike
  rw [StopsWith] at hstops
  rcases settled_cases hp t with ⟨v, hsettle⟩ | ⟨top, v, hsettle, hdir, hv⟩ <;>
    simp only [hsettle] at hf halike hstops ⊢
  · cases hf
  obtain ⟨before, g, after, bytes, hsplit, hg, hlast, hfound, hbytes⟩ := lookup_written hfiles hdir hf
  -- The later tree is paved as far as the scaffold, and holds the same below its directory.
  have hfault : p.fault? = none := fault?_of_settle (by rw [hsettle])
  have hleft := hv _ (Keeps.setFiles v (top ++ [p.lastSegment]) (v.opened (top ++ [p.lastSegment]) files))
  have hplace := halike.place
  rw [hleft] at hplace
  have hu : u.pave [] base = (some top, u) := Prod.ext hplace.symm (hpaved hfault)
  have hlater : u.lookup (top ++ [p.lastSegment, f.path.lastSegment]) = some (.file bytes) := by
    have hlocation : top ++ [p.lastSegment, f.path.lastSegment] =
        top ++ [p.lastSegment] ++ [f.path.lastSegment] := by simp
    rw [← halike.lookup_eq hleft hu [f.path.lastSegment], hlocation, hfound]
  obtain ⟨hlies, hrefusal⟩ := opened_liesIn hfiles f ((v.accepted_isPrefix_opened _ files).subset hf)
  have hsegments : f.path.segments = base ++ [p.lastSegment, f.path.lastSegment] := by
    rw [hlies.segments, hp.segments]
    simp
  exact ⟨before, g, after, bytes, hsplit, hg, hlast,
    find_of_lookup (refusal?_eq_none_iff.mp hrefusal).1 hsegments hu hlater, hstops ▸ hbytes⟩

end FileTree

/-! ## Runs -/

theorem mem_cutPaths {key : String} {e : ToolError} {path : Path} (h : (key, e) ∈ report.failures)
    (hpath : e.cut? = some path) : path ∈ report.cutPaths :=
  List.mem_filterMap.mpr ⟨(key, e), h, hpath⟩

/-- What a module has written in a run is the beginning of its rendered plan, and is found at the end of
the run. -/
theorem written_of_run (hset : ∀ x ∈ set.templates, '/' ∉ x.suffix.toList)
    (h : t.run root modules set = (.ok report, u)) (hm : m ∈ modules) :
    ∃ written : List RenderedFile,
      List.Forall₂ ((Plan.ofModule root m set).Renders m.bindings)
        (report.writtenFiles root set m) written ∧
      report.pathsOf root set m = written.map RenderedFile.path ∧
      ∀ f ∈ written, ∃ (before : List RenderedFile) (g : RenderedFile) (after : List RenderedFile)
          (bytes : List UInt8),
        written = before ++ g :: after ∧ g.path.lastSegment = f.path.lastSegment ∧
        (∀ g' ∈ after, g'.path.lastSegment ≠ f.path.lastSegment) ∧
        u.find f.path = .ok (.file bytes) ∧ (f.path ∉ report.cutPaths → bytes = g.bytes) := by
  have hkeys : (modules.map DemoModule.key).Nodup := FileTree.nodup_keys_of_run (by rw [h])
  have hends : (t.runModules root set .empty modules).1 = .ok report := by
    rw [← FileTree.run_of_nodup hkeys, h]
  have hall : ∀ n ∈ modules, ∀ x ∈ set.templates, ∃ s, x.render n.bindings = .ok s := fun n hn =>
    (Plan.exists_render_ofModule_iff root n set).mp (exists_render_of_runModules hends hn)
  obtain ⟨files, hrender⟩ := exists_render_of_runModules hends hm
  obtain ⟨failure, last, v, hstops, hrun, hpaths, hfailures, halike, hpaved⟩ :=
    FileTree.run_module hset hkeys hm hall hrender t
  rw [h] at hrun
  cases hrun
  have hbeginning := FileTree.scaffoldFiles_isPrefix t (Plan.ofModule root m set).directory files
  refine ⟨t.scaffoldFiles (Plan.ofModule root m set).directory files, ?_, hpaths, fun f hf => ?_⟩
  · rw [List.prefix_iff_eq_take.mp hbeginning, Report.writtenFiles, hpaths, List.length_map]
    exact List.forall₂_take _ (Plan.render_eq_ok_iff.mp hrender)
  · rw [← Plan.lastSegment_directory root m set] at halike
    obtain ⟨before, g, after, bytes, hsplit, hg, hlast, hfind, hbytes⟩ :=
      FileTree.find_of_scaffold (Plan.liesIn_directory root m set)
        (Plan.liesIn_of_render hset hrender) halike hpaved hstops hf
    refine ⟨before, g, after, bytes, hsplit, hg, hlast, hfind, fun hcut => hbytes fun hfailed => hcut ?_⟩
    obtain ⟨e, he, hpath⟩ := Option.bind_eq_some_iff.mp hfailed
    exact mem_cutPaths ((hfailures e).mpr he) hpath

/-- Two templates whose files have one name. -/
def twinSet : TemplateSet :=
  ⟨[⟨.source, "first\n", "txt"⟩, ⟨.interface, "second\n", "txt"⟩], by decide⟩

/-- An empty tree that takes six bytes for each file. -/
def tightTree : FileTree :=
  { FileTree.empty with room := fun _ => some 6 }

-- The second of two files with one name does not fit, and the first one is lost.
example :
    let ended := tightTree.run ⟨"out"⟩ [waves] twinSet
    ended.1.map (fun r => (r.manifest.paths, r.cutPaths)) =
        .ok ([⟨"out/waves/waves.txt"⟩], [⟨"out/waves/waves.txt"⟩]) ∧
      ended.2.find ⟨"out/waves/waves.txt"⟩ = .ok (.file (Text.Utf8.encode "second".toList)) := by
  decide +kernel

end DemoScaffold
