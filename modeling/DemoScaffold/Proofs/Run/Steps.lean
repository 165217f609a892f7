import DemoScaffold.Proofs.FileTree.Changes
import DemoScaffold.Proofs.Plan

/-!
# Steps of a run

A run in a file tree goes from module to module with the report so far and the tree. What it does for
one module is one step; a run over two lists of modules is one run after the other.
-/

namespace DemoScaffold

/-- The report with what came of one more module. -/
def Report.push (report : Report) (m : DemoModule) (directory : Path) (files : List RenderedFile)
    (r : Manifest × Option ToolError) : Report :=
  ⟨r.1, report.outcomes ++ [⟨m, directory, files.take (r.1.size - report.manifest.size), r.2⟩]⟩

theorem failures_push (report : Report) (m : DemoModule) (directory : Path)
    (files : List RenderedFile) (r : Manifest × Option ToolError) :
    (report.push m directory files r).failures = report.failures ++ (r.2.map (m.key, ·)).toList := by
  simp only [Report.push, Report.failures, List.filterMap_append, List.filterMap_cons]
  cases r.2 <;> rfl

/-- The paths of the files that have been cut, as the failures tell. -/
def Report.cutPaths (r : Report) : List Path :=
  r.failures.filterMap fun failure => failure.2.cut?

namespace FileTree

variable {t : FileTree} {root : Path} {set : TemplateSet} {report : Report} {m : DemoModule}
  {modules rest : List DemoModule} {files : List RenderedFile}

/-- A run in a file tree. -/
abbrev run (t : FileTree) (root : Path) (modules : List DemoModule) (set : TemplateSet) :
    Except ToolError Report × FileTree :=
  DemoScaffold.run (m := StateM FileTree) root modules set t

/-- A run in a file tree that goes on from a report. -/
abbrev runModules (t : FileTree) (root : Path) (set : TemplateSet) (report : Report)
    (modules : List DemoModule) : Except ToolError Report × FileTree :=
  DemoScaffold.runModules (m := StateM FileTree) root set report modules t

/-- A scaffold written in a file tree. -/
abbrev writeScaffold (t : FileTree) (directory : Path) (files : List RenderedFile)
    (manifest : Manifest) : (Manifest × Option ToolError) × FileTree :=
  DemoScaffold.writeScaffold (m := StateM FileTree) directory files manifest t

/-- There is room for all that modules can write. -/
def RoomForRun (t : FileTree) (set : TemplateSet) (modules : List DemoModule) : Prop :=
  ∀ m ∈ modules, ∀ x ∈ set.templates, ∀ s, x.render m.bindings = .ok s →
    t.RoomFor (Text.Utf8.encode s.toList)

theorem RoomForRun.of_room {u : FileTree} (h : t.RoomForRun set modules) (hroom : u.room = t.room) :
    u.RoomForRun set modules :=
  fun m hm x hx s hs => (h m hm x hx s hs).of_room hroom

theorem run_of_nodup (h : (modules.map DemoModule.key).Nodup) :
    t.run root modules set = t.runModules root set .empty modules := by
  rw [run, DemoScaffold.run, firstRepeat?_eq_none_iff.mpr h]

theorem run_of_repeat {key : String} (h : firstRepeat? (modules.map DemoModule.key) = some key) :
    t.run root modules set = (.error (.duplicateModule key), t) := by
  rw [run, DemoScaffold.run, h]
  rfl

theorem nodup_keys_of_run (h : (t.run root modules set).1 = .ok report) :
    (modules.map DemoModule.key).Nodup := by
  rw [← firstRepeat?_eq_none_iff]
  cases hrepeat : firstRepeat? (modules.map DemoModule.key) with
  | none => rfl
  | some key =>
      rw [run_of_repeat hrepeat] at h
      cases h

theorem runModules_nil : t.runModules root set report [] = (.ok report, t) :=
  rfl

theorem runModules_cons_of_error {e : ToolError}
    (h : (Plan.ofModule root m set).render m.bindings = .error e) :
    t.runModules root set report (m :: rest) = (.error e, t) := by
  simp only [runModules, DemoScaffold.runModules, h]
  rfl

theorem runModules_cons_of_ok (h : (Plan.ofModule root m set).render m.bindings = .ok files) :
    t.runModules root set report (m :: rest) =
      match t.writeScaffold (Plan.ofModule root m set).directory files report.manifest with
      | (r, u) =>
        u.runModules root set (report.push m (Plan.ofModule root m set).directory files r) rest := by
  simp only [runModules, DemoScaffold.runModules, h, bind, StateT.bind]
  rfl

theorem runModules_append (xs ys : List DemoModule) :
    t.runModules root set report (xs ++ ys) =
      match t.runModules root set report xs with
      | (.ok r, u) => u.runModules root set r ys
      | (.error e, u) => (.error e, u) := by
  induction xs generalizing t report with
  | nil => rfl
  | cons m rest ih =>
      rw [List.cons_append]
      cases hrender : (Plan.ofModule root m set).render m.bindings with
      | error e => simp only [runModules_cons_of_error hrender]
      | ok files =>
          rw [runModules_cons_of_ok hrender, runModules_cons_of_ok hrender]
          generalize t.writeScaffold (Plan.ofModule root m set).directory files report.manifest = step
          exact ih

/-- If every template can be rendered for every module, a run that goes on comes to its end. -/
theorem exists_runModules (t : FileTree) (root : Path) (report : Report)
    (h : ∀ m ∈ modules, ∀ x ∈ set.templates, ∃ s, x.render m.bindings = .ok s) :
    ∃ last u, t.runModules root set report modules = (.ok last, u) := by
  induction modules generalizing t report with
  | nil => exact ⟨report, t, rfl⟩
  | cons m rest ih =>
      obtain ⟨hm, hrest⟩ := List.forall_mem_cons.mp h
      obtain ⟨files, hfiles⟩ := (Plan.exists_render_ofModule_iff root m set).mpr hm
      rw [runModules_cons_of_ok hfiles]
      exact ih _ _ hrest

theorem exists_report (hkeys : (modules.map DemoModule.key).Nodup)
    (h : ∀ m ∈ modules, ∀ x ∈ set.templates, ∃ s, x.render m.bindings = .ok s) :
    ∃ last, (t.run root modules set).1 = .ok last := by
  rw [run_of_nodup hkeys]
  obtain ⟨last, u, hrun⟩ := exists_runModules t root .empty h
  exact ⟨last, by rw [hrun]⟩

end FileTree

/-! ## A small run -/

/-- A module for small runs. -/
def waves : DemoModule := ⟨"waves", "Waves", by decide⟩

/-- Another one. -/
def rings : DemoModule := ⟨"rings", "Rings", by decide⟩

/-- A set with one template, which has no markers. -/
def plainSet : TemplateSet := ⟨[⟨.source, "int main();\n", "cpp"⟩], by decide⟩

/-- A tree in which a file stands where the second module has its directory. -/
def blockedTree : FileTree :=
  (FileTree.empty.set [] "out" .directory).set ["out"] "rings" (.file [])

theorem plainSet_renders : ∀ x ∈ plainSet.templates, ∀ b, ∃ s, x.render b = .ok s := by
  simp only [plainSet, List.mem_singleton, forall_eq]
  exact fun b => ⟨"int main();\n", rfl⟩

end DemoScaffold
