import DemoScaffold.Proofs.Run.Manifest
import Mathlib.Data.List.Nodup

/-!
# Complete runs

A run without failures has written the whole scaffold of each of its modules, one after the other. Its
report lists all planned paths. If the suffixes of the templates differ, every template has a file of its
own for every module.
-/

namespace DemoScaffold

variable {t u v : FileTree} {root : Path} {set : TemplateSet} {report last : Report} {m : DemoModule}
  {modules : List DemoModule} {files : List RenderedFile}

/-- The scaffolds of modules are written one after the other and no write fails. -/
inductive AllWritten (root : Path) (set : TemplateSet) :
    FileTree → List DemoModule → FileTree → Prop where
  | nil {t : FileTree} : AllWritten root set t [] t
  | cons {t u v : FileTree} {m : DemoModule} {rest : List DemoModule} {files : List RenderedFile}
      {manifest : Manifest} (hrender : (Plan.ofModule root m set).render m.bindings = .ok files)
      (hwrite : t.writeScaffold (Plan.ofModule root m set).directory files .empty =
        ((manifest, none), u))
      (hrest : AllWritten root set u rest v) : AllWritten root set t (m :: rest) v

/-- What comes of a module that has been written: all the files of its rendered plan. -/
structure Outcome.IsComplete (root : Path) (set : TemplateSet) (m : DemoModule) (o : Outcome) : Prop where
  module : o.module = m
  directory : o.directory = (Plan.ofModule root m set).directory
  written : (Plan.ofModule root m set).render m.bindings = .ok o.written
  failure : o.failure = none

theorem writeScaffold_complete
    (hrender : (Plan.ofModule root m set).render m.bindings = .ok files) {manifest : Manifest}
    (hwrite : t.writeScaffold (Plan.ofModule root m set).directory files .empty =
      ((manifest, none), u)) (listed : Manifest) :
    t.writeScaffold (Plan.ofModule root m set).directory files listed =
      ((⟨listed.paths ++ (Plan.ofModule root m set).paths⟩, none), u) := by
  obtain ⟨block, failure, w, hfits, hall⟩ := writeScaffold_share hrender t
  rw [hall] at hwrite
  cases hwrite
  have hblock : block = (Plan.ofModule root m set).paths := hfits.block_eq rfl
  rw [hall, hblock]

/-- The manifest grows by one path for each file of a module that has been written. -/
theorem push_complete (hrender : (Plan.ofModule root m set).render m.bindings = .ok files) (report : Report) :
    report.push m (Plan.ofModule root m set).directory files
        (⟨report.manifest.paths ++ (Plan.ofModule root m set).paths⟩, none) =
      ⟨⟨report.manifest.paths ++ (Plan.ofModule root m set).paths⟩,
        report.outcomes ++ [⟨m, (Plan.ofModule root m set).directory, files, none⟩]⟩ := by
  have hsize : (Plan.ofModule root m set).paths.length = files.length := by
    rw [← Plan.paths_of_render hrender, List.length_map]
  rw [Report.push, List.take_of_length_le]
  simp [Manifest.size, hsize]

/-- A run whose writes all succeed ends with a report of them. -/
theorem AllWritten.runModules (h : AllWritten root set t modules v) (report : Report) :
    ∃ outcomes, List.Forall₂ (Outcome.IsComplete root set) modules outcomes ∧
      t.runModules root set report modules =
        (.ok ⟨⟨report.manifest.paths ++ modules.flatMap fun m => (Plan.ofModule root m set).paths⟩,
          report.outcomes ++ outcomes⟩, v) := by
  induction h generalizing report with
  | nil => exact ⟨[], .nil, by simp [FileTree.runModules_nil]⟩
  | @cons _ _ _ m _ files _ hrender hwrite hrest ih =>
      let outcome : Outcome := ⟨m, (Plan.ofModule root m set).directory, files, none⟩
      obtain ⟨outcomes, hcomplete, hrun⟩ := ih
        ⟨⟨report.manifest.paths ++ (Plan.ofModule root m set).paths⟩, report.outcomes ++ [outcome]⟩
      have houtcome : Outcome.IsComplete root set m outcome := ⟨rfl, rfl, hrender, rfl⟩
      refine ⟨outcome :: outcomes, .cons houtcome hcomplete, ?_⟩
      rw [FileTree.runModules_cons_of_ok hrender, writeScaffold_complete hrender hwrite]
      simp only [push_complete hrender, hrun, List.flatMap_cons, List.append_assoc, List.singleton_append,
        outcome]

theorem AllWritten.report_eq (h : AllWritten root set t modules v)
    (hrun : t.runModules root set .empty modules = (.ok report, u)) :
    report.manifest.paths = modules.flatMap (fun m => (Plan.ofModule root m set).paths) ∧
      List.Forall₂ (Outcome.IsComplete root set) modules report.outcomes := by
  obtain ⟨outcomes, hcomplete, hends⟩ := h.runModules .empty
  rw [hends] at hrun
  cases hrun
  exact ⟨by simp [Report.empty, Manifest.empty], by simpa [Report.empty] using hcomplete⟩

theorem failures_of_outcomes (h : List.Forall₂ (Outcome.IsComplete root set) modules report.outcomes) :
    report.failures = [] := by
  rw [Report.failures]
  generalize report.outcomes = outcomes at h
  induction h with
  | nil => rfl
  | cons ho _ ih => simp [ho.failure, ih]

theorem allWritten_of_failures (h : t.runModules root set report modules = (.ok last, u))
    (hnone : last.failures = []) : AllWritten root set t modules u := by
  induction modules generalizing t report with
  | nil =>
      cases h
      exact .nil
  | cons m rest ih =>
      cases hrender : (Plan.ofModule root m set).render m.bindings with
      | error e =>
          rw [FileTree.runModules_cons_of_error hrender] at h
          cases h
      | ok files =>
          obtain ⟨block, failure, v, hfits, hall⟩ := writeScaffold_share hrender t
          rw [FileTree.runModules_cons_of_ok hrender, hall] at h
          -- Failures are only added to a report, so this module has none.
          obtain ⟨shares, -, -, -, -, hfailures⟩ := runModules_shares (congrArg Prod.fst h)
          rw [hnone, failures_push] at hfailures
          have hempty := (List.append_eq_nil_iff.mp hfailures.symm).1
          cases failure with
          | some e => simp at hempty
          | none => exact .cons hrender (hall .empty) (ih h)

theorem paths_of_complete (h : t.run root modules set = (.ok report, u)) (hnone : report.failures = []) :
    report.manifest.paths = modules.flatMap fun m => (Plan.ofModule root m set).paths := by
  rw [FileTree.run_of_nodup (FileTree.nodup_keys_of_run (by rw [h]))] at h
  exact ((allWritten_of_failures h hnone).report_eq h).1

/-! ## Failing writes -/

theorem failure?_eq_none {dir : Location} (h : ∀ f ∈ files, t.writeFault? dir f = none) :
    t.failure? dir files = none := by
  induction files with
  | nil => rfl
  | cons f rest ih =>
      obtain ⟨hf, hrest⟩ := List.forall_mem_cons.mp h
      rw [FileTree.failure?, hf]
      exact ih hrest

/-- A scaffold is written if its directory can be made, none of its paths is refused there, and there is
room for its files. -/
theorem exists_writeScaffold (hset : ∀ x ∈ set.templates, '/' ∉ x.suffix.toList)
    (hrender : (Plan.ofModule root m set).render m.bindings = .ok files) {dir : Location}
    (hsettle : (t.settle (Plan.ofModule root m set).directory).1 = some dir)
    (hfree : ∀ path ∈ (Plan.ofModule root m set).paths,
      (t.settle (Plan.ofModule root m set).directory).2.refusal? dir path = none)
    (hroom : ∀ f ∈ files, t.RoomFor f.bytes) :
    ∃ manifest u, t.writeScaffold (Plan.ofModule root m set).directory files .empty =
      ((manifest, none), u) := by
  obtain ⟨failure, hstops, hwrite⟩ := FileTree.writeScaffold_eq (t := t)
    (Plan.liesIn_directory root m set) (Plan.liesIn_of_render hset hrender)
  have hkept := FileTree.Keeps.settle t (Plan.ofModule root m set).directory
  have hnone : (t.settle (Plan.ofModule root m set).directory).2.failure? dir files = none := by
    refine failure?_eq_none fun f hf => FileTree.writeFault?_eq_none_iff.mpr ⟨hfree f.path ?_, ?_⟩
    · rw [← Plan.paths_of_render hrender]
      exact List.mem_map_of_mem hf
    · exact (hroom f hf).of_room hkept.room _
  rw [FileTree.StopsWith] at hstops
  rcases hmade : t.settle (Plan.ofModule root m set).directory with ⟨place, v⟩
  rw [hmade] at hsettle hnone
  obtain rfl : place = some dir := hsettle
  simp only [hmade, hnone] at hstops
  exact ⟨_, _, hstops ▸ hwrite .empty⟩

/-- The write of a module fails in the tree that the modules before it leave. -/
def WriteFails (root : Path) (set : TemplateSet) (t : FileTree) (modules : List DemoModule) : Prop :=
  ∃ before m after files e, modules = before ++ m :: after ∧
    (Plan.ofModule root m set).render m.bindings = .ok files ∧
    ((t.run root before set).2.writeScaffold (Plan.ofModule root m set).directory files .empty).1.2 =
      some e

theorem AllWritten.split {before after : List DemoModule}
    (h : AllWritten root set t (before ++ m :: after) v) :
    ∃ w files manifest u, AllWritten root set t before w ∧
      (Plan.ofModule root m set).render m.bindings = .ok files ∧
      w.writeScaffold (Plan.ofModule root m set).directory files .empty = ((manifest, none), u) := by
  induction before generalizing t with
  | nil =>
      cases h with
      | cons hrender hwrite hrest => exact ⟨t, _, _, _, .nil, hrender, hwrite⟩
  | cons n before ih =>
      cases h with
      | cons hrender hwrite hrest =>
          obtain ⟨w, files, manifest, u, hbefore, hm⟩ := ih hrest
          exact ⟨w, files, manifest, u, .cons hrender hwrite hbefore, hm⟩

theorem allWritten_or_fails (t : FileTree)
    (hall : ∀ m ∈ modules, ∀ x ∈ set.templates, ∃ s, x.render m.bindings = .ok s) :
    (∃ v, AllWritten root set t modules v) ∨
      ∃ before m after files w e, modules = before ++ m :: after ∧ AllWritten root set t before w ∧
        (Plan.ofModule root m set).render m.bindings = .ok files ∧
        (w.writeScaffold (Plan.ofModule root m set).directory files .empty).1.2 = some e := by
  induction modules generalizing t with
  | nil => exact .inl ⟨t, .nil⟩
  | cons m rest ih =>
      obtain ⟨hm, hrest⟩ := List.forall_mem_cons.mp hall
      obtain ⟨files, hrender⟩ := (Plan.exists_render_ofModule_iff root m set).mpr hm
      rcases hwrite : t.writeScaffold (Plan.ofModule root m set).directory files .empty with
        ⟨⟨manifest, _ | e⟩, u⟩
      · rcases ih u hrest with ⟨v, hwritten⟩ | ⟨before, n, after, others, w, e, rfl, hbefore, hn⟩
        · exact .inl ⟨v, .cons hrender hwrite hwritten⟩
        · exact .inr ⟨m :: before, n, after, others, w, e, rfl, .cons hrender hwrite hbefore, hn⟩
      · exact .inr ⟨[], m, rest, files, t, e, rfl, .nil, hrender, by rw [hwrite]⟩

theorem AllWritten.run (h : AllWritten root set t modules v)
    (hkeys : (modules.map DemoModule.key).Nodup) : (t.run root modules set).2 = v := by
  obtain ⟨outcomes, -, hrun⟩ := h.runModules .empty
  rw [FileTree.run_of_nodup hkeys, hrun]

theorem not_writeFails_iff (hkeys : (modules.map DemoModule.key).Nodup)
    (hall : ∀ m ∈ modules, ∀ x ∈ set.templates, ∃ s, x.render m.bindings = .ok s) :
    ¬ WriteFails root set t modules ↔ ∃ v, AllWritten root set t modules v := by
  have hbefore : ∀ {before m after}, modules = before ++ m :: after →
      (before.map DemoModule.key).Nodup := by
    rintro before m after rfl
    rw [List.map_append] at hkeys
    exact (List.nodup_append.mp hkeys).1
  constructor
  · intro h
    refine (allWritten_or_fails t hall).resolve_right ?_
    rintro ⟨before, m, after, files, w, e, hsplit, hwritten, hrender, hfails⟩
    refine h ⟨before, m, after, files, e, hsplit, hrender, ?_⟩
    rw [hwritten.run (hbefore hsplit), hfails]
  · rintro ⟨v, hwritten⟩ ⟨before, m, after, files, e, rfl, hrender, hfails⟩
    obtain ⟨w, others, manifest, u, hfirst, hothers, hwrite⟩ := hwritten.split
    rw [hrender] at hothers
    cases hothers
    rw [hfirst.run (hbefore rfl), hwrite] at hfails
    cases hfails

/-! ## Files of templates with different suffixes -/

theorem pathsOf_complete (hm : m ∈ modules)
    (h : report.manifest.paths = modules.flatMap fun m => (Plan.ofModule root m set).paths) :
    (Plan.ofModule root m set).files.length ≤ (report.pathsOf root set m).length := by
  obtain ⟨before, after, rfl⟩ := List.append_of_mem hm
  have hown : (Plan.ofModule root m set).paths.filter (· ∈ (Plan.ofModule root m set).paths) =
      (Plan.ofModule root m set).paths :=
    List.filter_eq_self.mpr fun path hpath => by simpa using hpath
  have hlength : (Plan.ofModule root m set).paths.length = (Plan.ofModule root m set).files.length :=
    List.length_map _
  rw [Report.pathsOf, h, List.flatMap_append, List.flatMap_cons, List.filter_append, List.filter_append,
    hown, List.length_append, List.length_append]
  omega

theorem Plan.eq_of_fileName (hdistinct : (set.templates.map Template.suffix).Nodup)
    {file other : PlannedFile} (hfile : file ∈ (Plan.ofModule root m set).files)
    (hother : other ∈ (Plan.ofModule root m set).files) (hname : file.fileName = other.fileName) :
    file = other := by
  obtain ⟨x, hx, rfl⟩ := List.mem_map.mp hfile
  obtain ⟨y, hy, rfl⟩ := List.mem_map.mp hother
  have hsuffix : x.suffix = y.suffix := by simpa using hname
  rw [List.inj_on_of_nodup_map hdistinct hx hy hsuffix]

/-- After a run without failures the file of every template is found with its own rendering. -/
theorem find_of_complete (hset : ∀ x ∈ set.templates, '/' ∉ x.suffix.toList)
    (hdistinct : (set.templates.map Template.suffix).Nodup)
    (h : t.run root modules set = (.ok report, u)) (hnone : report.failures = []) (hm : m ∈ modules)
    {x : Template} (hx : x ∈ set.templates) :
    ∃ s, x.render m.bindings = .ok s ∧
      u.find ((root.join ⟨m.key⟩).join ⟨m.key ++ "." ++ x.suffix⟩) =
        .ok (.file (Text.Utf8.encode s.toList)) := by
  obtain ⟨written, hrenders, -, hfound⟩ := written_of_run hset h hm
  have hall := paths_of_complete h hnone
  have htake : report.writtenFiles root set m = (Plan.ofModule root m set).files :=
    List.take_of_length_le (pathsOf_complete hm hall)
  rw [htake] at hrenders
  let file : PlannedFile := ⟨m.key ++ "." ++ x.suffix, x⟩
  have hfile : file ∈ (Plan.ofModule root m set).files := List.mem_map_of_mem hx
  have hnames := Plan.paths_of_renders hrenders
  obtain ⟨f, hf, hpath⟩ := List.mem_map.mp (hnames ▸ List.mem_map_of_mem hfile)
  obtain ⟨before, g, after, bytes, hsplit, hlast, -, hfind, hbytes⟩ := hfound f hf
  rw [hsplit] at hrenders
  obtain ⟨front, other, back, hfiles, ⟨hg, htext⟩, -⟩ := Plan.split_of_renders hrenders
  have hother : other ∈ (Plan.ofModule root m set).files := by simp [hfiles]
  rw [hg, hpath, Plan.lastSegment_path hset hother, Plan.lastSegment_path hset hfile] at hlast
  -- The last file that was written under this name is the one of `x`, as there is no other.
  obtain rfl := Plan.eq_of_fileName hdistinct hother hfile hlast
  refine ⟨g.contents, htext, ?_⟩
  change u.find ((Plan.ofModule root m set).path file) = _
  rw [← hpath, hfind, hbytes (by simp [Report.cutPaths, hnone])]
  rfl

end DemoScaffold
