import DemoScaffold.Proofs.FileTree.Siblings
import DemoScaffold.Proofs.Run.Steps

/-!
# Modules in one run

The modules of a run are scaffolds below one root. What comes of a module, in the report and in the
tree, is what would come of it alone: the modules before it leave the tree alike at its directory, and
those after it change nothing there.
-/

namespace DemoScaffold

variable {t u : FileTree} {root : Path} {set : TemplateSet} {report last : Report} {m : DemoModule}
  {modules rest : List DemoModule} {files : List RenderedFile}

/-- The keys of the modules that could not be fully written. -/
def Report.failedKeys (r : Report) : List String :=
  r.failures.map Prod.fst

/-- The paths in the manifest that were planned for a module. -/
def Report.pathsOf (r : Report) (root : Path) (set : TemplateSet) (m : DemoModule) : List Path :=
  r.manifest.paths.filter (· ∈ (Plan.ofModule root m set).paths)

theorem failedKeys_append {next : Report} {failure : Option ToolError}
    (h : next.failures = report.failures ++ (failure.map (m.key, ·)).toList) :
    next.failedKeys = report.failedKeys ++ if failure.isSome then [m.key] else [] := by
  rw [Report.failedKeys, h, List.map_append, ← Report.failedKeys]
  cases failure <;> rfl

theorem mem_failedKeys_iff {key : String} : key ∈ report.failedKeys ↔ ∃ e, (key, e) ∈ report.failures := by
  simp [Report.failedKeys]

/-! ## One module -/

namespace FileTree

theorem runModules_cons (hset : ∀ x ∈ set.templates, '/' ∉ x.suffix.toList)
    (hrender : (Plan.ofModule root m set).render m.bindings = .ok files) (t : FileTree)
    (report : Report) :
    ∃ (failure : Option ToolError) (next : Report),
      t.StopsWith (Plan.ofModule root m set).directory files failure ∧
      next.manifest.paths = report.manifest.paths ++
          (t.scaffoldFiles (Plan.ofModule root m set).directory files).map RenderedFile.path ∧
      next.failures = report.failures ++ (failure.map (m.key, ·)).toList ∧
      ∀ rest, t.runModules root set report (m :: rest) =
        (t.scaffoldTree (Plan.ofModule root m set).directory files).runModules root set next rest := by
  obtain ⟨failure, hstops, hwrite⟩ := writeScaffold_eq (t := t)
    (Plan.liesIn_directory root m set) (Plan.liesIn_of_render hset hrender)
  exact ⟨failure, _, hstops, rfl, failures_push report m _ files _,
    fun rest => by rw [runModules_cons_of_ok hrender, writeScaffold, hwrite]⟩

/-! ## Many modules -/

theorem Keeps.runModules (hset : ∀ x ∈ set.templates, '/' ∉ x.suffix.toList) (root : Path)
    (t : FileTree) (report : Report) (modules : List DemoModule) :
    t.Keeps (t.runModules root set report modules).2 := by
  induction modules generalizing t report with
  | nil => exact Keeps.refl t
  | cons m rest ih =>
      cases hrender : (Plan.ofModule root m set).render m.bindings with
      | error e =>
          rw [runModules_cons_of_error hrender]
          exact Keeps.refl t
      | ok files =>
          obtain ⟨-, next, -, -, -, hnext⟩ := runModules_cons hset hrender t report
          rw [hnext]
          exact (Keeps.scaffoldTree t _ files).trans (ih _ next)

/-- Other modules leave the tree alike at the directory of a module. -/
theorem alikeAt_runModules (hset : ∀ x ∈ set.templates, '/' ∉ x.suffix.toList) (root : Path)
    (t : FileTree) (report : Report) (hne : ∀ n ∈ modules, n.key ≠ m.key) :
    AlikeAt root.base m.key t (t.runModules root set report modules).2 := by
  induction modules generalizing t report with
  | nil => exact AlikeAt.refl t
  | cons n rest ih =>
      obtain ⟨hn, hrest⟩ := List.forall_mem_cons.mp hne
      cases hrender : (Plan.ofModule root n set).render n.bindings with
      | error e =>
          rw [runModules_cons_of_error hrender]
          exact AlikeAt.refl t
      | ok files =>
          obtain ⟨-, next, -, -, -, hnext⟩ := runModules_cons hset hrender t report
          rw [hnext]
          rw [← Plan.lastSegment_directory root n set] at hn
          have hstep := alikeAt_scaffoldTree_of_ne (t := t) (Plan.liesIn_directory root n set)
            (Plan.liesIn_of_render hset hrender) hn
          exact hstep.trans (ih _ next hrest)

theorem scaffoldFiles_isPrefix (t : FileTree) (p : Path) (files : List RenderedFile) :
    t.scaffoldFiles p files <+: files := by
  rw [scaffoldFiles]
  split
  · exact accepted_isPrefix _ _ files
  · exact List.nil_prefix

theorem mem_paths_of_mem_scaffoldFiles {p path : Path}
    (hrender : (Plan.ofModule root m set).render m.bindings = .ok files)
    (h : path ∈ (t.scaffoldFiles p files).map RenderedFile.path) :
    path ∈ (Plan.ofModule root m set).paths := by
  rw [← Plan.paths_of_render hrender]
  exact ((scaffoldFiles_isPrefix t p files).map RenderedFile.path).subset h

theorem report_of_others (hset : ∀ x ∈ set.templates, '/' ∉ x.suffix.toList)
    (hne : ∀ n ∈ modules, n.key ≠ m.key)
    (h : (t.runModules root set report modules).1 = .ok last) :
    last.pathsOf root set m = report.pathsOf root set m ∧
      ∀ e, (m.key, e) ∈ last.failures ↔ (m.key, e) ∈ report.failures := by
  induction modules generalizing t report with
  | nil =>
      cases h
      exact ⟨rfl, fun _ => Iff.rfl⟩
  | cons n rest ih =>
      obtain ⟨hn, hrest⟩ := List.forall_mem_cons.mp hne
      cases hrender : (Plan.ofModule root n set).render n.bindings with
      | error e =>
          rw [runModules_cons_of_error hrender] at h
          cases h
      | ok files =>
          obtain ⟨failure, next, -, hmanifest, hfailures, hnext⟩ := runModules_cons hset hrender t report
          rw [hnext] at h
          obtain ⟨hpaths, hsame⟩ := ih hrest h
          refine ⟨hpaths.trans ?_, fun e => (hsame e).trans ?_⟩
          · have hnone : ((t.scaffoldFiles (Plan.ofModule root n set).directory files).map
                RenderedFile.path).filter (· ∈ (Plan.ofModule root m set).paths) = [] := by
              refine List.filter_eq_nil_iff.mpr fun path hpath => ?_
              have hplanned := mem_paths_of_mem_scaffoldFiles hrender hpath
              simp only [decide_eq_true_eq]
              exact fun hm => hn (Plan.key_eq_of_mem_paths hset hplanned hm)
            rw [Report.pathsOf, hmanifest, List.filter_append, hnone, List.append_nil]
            rfl
          · rw [hfailures]
            cases failure <;> simp [Ne.symm hn]

theorem ne_key_of_nodup {before after : List DemoModule}
    (h : ((before ++ m :: after).map DemoModule.key).Nodup) :
    (∀ n ∈ before, n.key ≠ m.key) ∧ ∀ n ∈ after, n.key ≠ m.key := by
  rw [List.map_append, List.map_cons] at h
  obtain ⟨-, hcons, hapart⟩ := List.nodup_append.mp h
  obtain ⟨hm, -⟩ := List.nodup_cons.mp hcons
  refine ⟨fun n hn => hapart _ (List.mem_map_of_mem hn) _ List.mem_cons_self, fun n hn heq => hm ?_⟩
  rw [← heq]
  exact List.mem_map_of_mem hn

/-- What comes of a module in a run is what comes of it alone, and the report has its own failure, if it
has any. -/
theorem run_module (hset : ∀ x ∈ set.templates, '/' ∉ x.suffix.toList)
    (hkeys : (modules.map DemoModule.key).Nodup) (hm : m ∈ modules)
    (hall : ∀ n ∈ modules, ∀ x ∈ set.templates, ∃ s, x.render n.bindings = .ok s)
    (hrender : (Plan.ofModule root m set).render m.bindings = .ok files) (t : FileTree) :
    ∃ failure last u, t.StopsWith (Plan.ofModule root m set).directory files failure ∧
      t.run root modules set = (.ok last, u) ∧
      last.pathsOf root set m =
        (t.scaffoldFiles (Plan.ofModule root m set).directory files).map RenderedFile.path ∧
      (∀ e, (m.key, e) ∈ last.failures ↔ failure = some e) ∧
      AlikeAt root.base m.key (t.scaffoldTree (Plan.ofModule root m set).directory files) u ∧
      ((Plan.ofModule root m set).directory.fault? = none → (u.pave [] root.base).2 = u) := by
  -- What comes before `m` cannot be seen from its directory, its own step depends on nothing else, and
  -- what comes after it cannot be seen there either.
  obtain ⟨before, after, rfl⟩ := List.append_of_mem hm
  obtain ⟨hbefore, hafter⟩ := ne_key_of_nodup hkeys
  obtain ⟨first, v, hfirst⟩ := exists_runModules t root .empty fun n hn =>
    hall n (List.mem_append_left _ hn)
  obtain ⟨failure, next, hstops, hmanifest, hfailures, hnext⟩ := runModules_cons hset hrender v first
  obtain ⟨last, u, hlast⟩ := exists_runModules
    (v.scaffoldTree (Plan.ofModule root m set).directory files) root next fun n hn =>
      hall n (List.mem_append_right _ (List.mem_cons_of_mem m hn))
  have hp := Plan.liesIn_directory root m set
  have hfiles := Plan.liesIn_of_render hset hrender
  have halike := alikeAt_runModules hset root t .empty hbefore
  rw [hfirst, ← Plan.lastSegment_directory root m set] at halike
  obtain ⟨hsame, hfails, htree⟩ := halike.scaffold hp hfiles
  replace hstops := (hfails failure).mpr hstops
  have hothers := alikeAt_runModules hset root
    (v.scaffoldTree (Plan.ofModule root m set).directory files) next hafter
  rw [hlast, ← Plan.lastSegment_directory root m set] at hothers
  have hends : (t.runModules root set .empty before).1 = .ok first := by rw [hfirst]
  have hends' : ((v.scaffoldTree (Plan.ofModule root m set).directory files).runModules root set next
      after).1 = .ok last := by rw [hlast]
  obtain ⟨hpathsBefore, hfailuresBefore⟩ := report_of_others hset hbefore hends
  obtain ⟨hpathsAfter, hfailuresAfter⟩ := report_of_others hset hafter hends'
  refine ⟨failure, last, u, hstops, ?_, ?_, fun e => ?_, ?_, fun hfault => ?_⟩
  · rw [run_of_nodup hkeys, runModules_append, hfirst]
    simp only [hnext, hlast]
  · have hblock : ((v.scaffoldFiles (Plan.ofModule root m set).directory files).map
        RenderedFile.path).filter (· ∈ (Plan.ofModule root m set).paths) =
          (v.scaffoldFiles (Plan.ofModule root m set).directory files).map RenderedFile.path :=
      List.filter_eq_self.mpr fun path hpath => by
        simpa using mem_paths_of_mem_scaffoldFiles hrender hpath
    rw [hpathsAfter, Report.pathsOf, hmanifest, List.filter_append, hblock, ← Report.pathsOf,
      hpathsBefore, hsame]
    rfl
  · have hempty : (m.key, e) ∉ first.failures := fun h => List.not_mem_nil ((hfailuresBefore e).mp h)
    rw [hfailuresAfter, hfailures]
    simp [hempty]
  · rw [← Plan.lastSegment_directory root m set]
    exact htree.trans hothers
  · have hkept := Keeps.runModules hset root
      (v.scaffoldTree (Plan.ofModule root m set).directory files) next after
    rw [hlast] at hkept
    have hpaved := (keeps_pave_settle (t := v) hp hfault).trans
      ((keeps_settle_scaffoldTree v _ files).trans hkept)
    rw [pave_again (lookup_nil_isSome v) hpaved]

end FileTree

/-- A module fails, writes and leaves the same below its directory in any two runs from one tree. -/
theorem module_independent_of_siblings {modules' : List DemoModule}
    (hset : ∀ x ∈ set.templates, '/' ∉ x.suffix.toList)
    (hkeys : (modules.map DemoModule.key).Nodup) (hkeys' : (modules'.map DemoModule.key).Nodup)
    (hall : ∀ n ∈ modules, ∀ x ∈ set.templates, ∃ s, x.render n.bindings = .ok s)
    (hall' : ∀ n ∈ modules', ∀ x ∈ set.templates, ∃ s, x.render n.bindings = .ok s)
    (hm : m ∈ modules) (hm' : m ∈ modules') (t : FileTree) :
    ∃ r u r' u', t.run root modules set = (.ok r, u) ∧ t.run root modules' set = (.ok r', u') ∧
      (m.key ∈ r.failures.map Prod.fst ↔ m.key ∈ r'.failures.map Prod.fst) ∧
      r.pathsOf root set m = r'.pathsOf root set m ∧
      u.subtree (root.join ⟨m.key⟩) = u'.subtree (root.join ⟨m.key⟩) := by
  obtain ⟨files, hrender⟩ := (Plan.exists_render_ofModule_iff root m set).mpr (hall m hm)
  obtain ⟨failure, r, u, hstops, hrun, hpaths, hfailures, halike, hpaved⟩ :=
    FileTree.run_module hset hkeys hm hall hrender t
  obtain ⟨failure', r', u', hstops', hrun', hpaths', hfailures', halike', hpaved'⟩ :=
    FileTree.run_module hset hkeys' hm' hall' hrender t
  have hfailed : m.key ∈ r.failedKeys ↔ m.key ∈ r'.failedKeys := by
    simp only [mem_failedKeys_iff, hfailures, hfailures', ← Option.isSome_iff_exists, hstops.isSome,
      hstops'.isSome]
  refine ⟨r, u, r', u', hrun, hrun', hfailed, hpaths.trans hpaths'.symm, ?_⟩
  have hboth := halike.symm.trans halike'
  rw [← Plan.lastSegment_directory root m set] at hboth
  exact hboth.subtree_eq (Plan.liesIn_directory root m set) hpaved hpaved'

/-- The order of two modules, one of which is blocked, makes no difference to it. -/
theorem blocked_module_independent_of_order :
    ∃ r u r' u', blockedTree.run ⟨"out"⟩ [waves, rings] plainSet = (.ok r, u) ∧
      blockedTree.run ⟨"out"⟩ [rings, waves] plainSet = (.ok r', u') ∧
      (rings.key ∈ r.failures.map Prod.fst ↔ rings.key ∈ r'.failures.map Prod.fst) ∧
      r.pathsOf ⟨"out"⟩ plainSet rings = r'.pathsOf ⟨"out"⟩ plainSet rings ∧
      u.subtree (Path.join ⟨"out"⟩ ⟨"rings"⟩) = u'.subtree (Path.join ⟨"out"⟩ ⟨"rings"⟩) :=
  module_independent_of_siblings (by decide) (by decide) (by decide)
    (fun n _ x hx => plainSet_renders x hx n.bindings)
    (fun n _ x hx => plainSet_renders x hx n.bindings) (by decide) (by decide) blockedTree

end DemoScaffold
