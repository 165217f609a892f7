import DemoScaffold.Proofs.FileTree.Changes
import DemoScaffold.Proofs.Run.Steps

/-!
# Accounting

The report of a run accounts for every module: the manifest is made of one block a module, a beginning
of the paths that were planned for it, and a module has failed exactly if its directory could not be
created or its block is not the whole plan.
-/

namespace DemoScaffold

variable {root : Path} {set : TemplateSet} {t : FileTree} {report : Report}
  {modules : List DemoModule}

/-! ## One module -/

/-- How writing planned paths can end: with all of them, or in front of the first that could not be
written. -/
inductive Ending (planned : List Path) : List Path → Option ToolError → Prop where
  | complete : Ending planned planned none
  | stopped {block rest : List Path} {p : Path} (fault : DiskFault) (h : planned = block ++ p :: rest) :
      Ending planned block (some (.writeFailed p fault))

theorem ending_of_filesEnd {files done : List RenderedFile} {failure : Option ToolError} {u : FileTree}
    (h : t.FilesEnd files done failure u) :
    Ending (files.map RenderedFile.path) (done.map RenderedFile.path) failure := by
  cases h with
  | complete hall => exact .complete
  | stopped hfiles hdone hfault => exact .stopped _ (by rw [hfiles, List.map_append, List.map_cons])

/-- What is written does not depend on the manifest, which only grows. -/
theorem writeFiles_ending (files : List RenderedFile) (t : FileTree) :
    ∃ block failure u, Ending (files.map RenderedFile.path) block failure ∧
      ∀ manifest, writeFiles (m := StateM FileTree) manifest files t =
        ((⟨manifest.paths ++ block⟩, failure), u) := by
  obtain ⟨done, failure, u, hend, hwrite⟩ := FileTree.writeFiles_ends files t
  exact ⟨_, failure, u, ending_of_filesEnd hend, hwrite⟩

/-- What a run has to show for a module: the tree that it found, the paths that it wrote, and the
failure that it stopped at. -/
structure Share where
  module : DemoModule
  found : FileTree
  block : List Path
  failure : Option ToolError

/-- A share is right if its block is a beginning of the plan, and its failure tells that the directory
could not be created or which path comes after the block. -/
structure Share.Fits (root : Path) (set : TemplateSet) (s : Share) : Prop where
  isBeginning : s.block <+: (Plan.ofModule root s.module set).paths
  failed_iff : s.failure.isSome ↔
    (∃ fault, (s.found.createDirAll (Plan.ofModule root s.module set).directory).1 = .error fault) ∨
      s.block ≠ (Plan.ofModule root s.module set).paths
  failedAt : ∀ e, s.failure = some e → ∃ p fault, e = .writeFailed p fault ∧
    (p = (Plan.ofModule root s.module set).directory ∧ s.block = [] ∧
        (s.found.createDirAll (Plan.ofModule root s.module set).directory).1 = .error fault ∨
      (s.found.createDirAll (Plan.ofModule root s.module set).directory).1 = .ok () ∧
        ∃ rest, (Plan.ofModule root s.module set).paths = s.block ++ p :: rest)

theorem writeScaffold_share {m : DemoModule} {files : List RenderedFile}
    (hrender : (Plan.ofModule root m set).render m.bindings = .ok files) (t : FileTree) :
    ∃ block failure u, Share.Fits root set ⟨m, t, block, failure⟩ ∧
      ∀ manifest, t.writeScaffold (Plan.ofModule root m set).directory files manifest =
        ((⟨manifest.paths ++ block⟩, failure), u) := by
  have hpaths := Plan.paths_of_render hrender
  simp only [FileTree.writeScaffold, FileTree.writeScaffold_of_createDirAll]
  rcases hmade : t.createDirAll (Plan.ofModule root m set).directory with ⟨fault | _, made⟩
  · refine ⟨[], some (.writeFailed (Plan.ofModule root m set).directory fault), made,
      ⟨List.nil_prefix, ?_, ?_⟩, fun manifest => by simp⟩
    · exact iff_of_true rfl (.inl ⟨fault, by rw [hmade]⟩)
    · intro e he
      cases he
      exact ⟨_, fault, rfl, .inl ⟨rfl, rfl, by rw [hmade]⟩⟩
  · obtain ⟨block, failure, u, hending, hwrite⟩ := writeFiles_ending files made
    rw [hpaths] at hending
    refine ⟨block, failure, u, ?_, hwrite⟩
    cases hending with
    | complete =>
        refine ⟨List.prefix_refl _, iff_of_false (by simp) ?_, fun e he => by cases he⟩
        simp [hmade]
    | @stopped _ rest p fault h =>
        refine ⟨⟨p :: rest, h.symm⟩, iff_of_true rfl (.inr ?_), fun e he => ?_⟩
        · simp [h]
        · cases he
          exact ⟨p, fault, rfl, .inr ⟨by rw [hmade], rest, h⟩⟩

/-! ## All modules -/

/-- The entry of a share in the list of failures. -/
def Share.entry? (s : Share) : Option (String × ToolError) :=
  s.failure.map (s.module.key, ·)

/-- Every run that goes on from a report adds right shares to it. -/
theorem runModules_shares {last : Report}
    (h : (t.runModules root set report modules).1 = .ok last) :
    ∃ shares : List Share, shares.map Share.module = modules ∧ (∀ s ∈ shares, s.Fits root set) ∧
      (∀ before s after, shares = before ++ s :: after → ∀ r,
        (t.runModules root set r (before.map Share.module)).2 = s.found) ∧
      last.manifest.paths = report.manifest.paths ++ shares.flatMap Share.block ∧
      last.failures = report.failures ++ shares.filterMap Share.entry? := by
  induction modules generalizing t report with
  | nil =>
      cases h
      exact ⟨[], rfl, by simp, by simp, by simp, by simp⟩
  | cons m rest ih =>
      cases hrender : (Plan.ofModule root m set).render m.bindings with
      | error e =>
          rw [FileTree.runModules_cons_of_error hrender] at h
          cases h
      | ok files =>
          obtain ⟨block, failure, u, hfits, hwrite⟩ := writeScaffold_share hrender t
          rw [FileTree.runModules_cons_of_ok hrender, hwrite] at h
          obtain ⟨shares, hmodules, hall, hfound, hmanifest, hfailures⟩ := ih h
          refine ⟨⟨m, t, block, failure⟩ :: shares, by simp [hmodules],
            List.forall_mem_cons.mpr ⟨hfits, hall⟩, ?_, by simp [hmanifest, Report.push], ?_⟩
          · intro before s after hsplit r
            cases before with
            | nil =>
                obtain ⟨rfl, -⟩ := List.cons.inj hsplit
                rfl
            | cons first more =>
                obtain ⟨rfl, hrest⟩ := List.cons.inj hsplit
                rw [List.map_cons, FileTree.runModules_cons_of_ok hrender, hwrite]
                exact hfound more s after hrest _
          · rw [hfailures, failures_push, List.filterMap_cons]
            cases failure <;> simp [Share.entry?]

theorem keys_sublist (shares : List Share) :
    ((shares.filterMap Share.entry?).map Prod.fst).Sublist
      ((shares.map Share.module).map DemoModule.key) := by
  induction shares with
  | nil => exact List.Sublist.refl []
  | cons s rest ih =>
      rw [List.filterMap_cons, List.map_cons, List.map_cons]
      cases hfailure : s.failure with
      | none =>
          simp only [Share.entry?, hfailure, Option.map_none]
          exact ih.cons s.module.key
      | some e =>
          simp only [Share.entry?, hfailure, Option.map_some, List.map_cons]
          exact ih.cons_cons s.module.key

theorem entries_eq_nil_iff {shares : List Share} :
    shares.filterMap Share.entry? = [] ↔ ∀ s ∈ shares, s.failure = none := by
  simp [List.filterMap_eq_nil_iff, Share.entry?]

theorem Share.Fits.block_eq {s : Share} (h : s.Fits root set) (hfailure : s.failure = none) :
    s.block = (Plan.ofModule root s.module set).paths := by
  by_contra hblock
  have := h.failed_iff.mpr (.inr hblock)
  simp [hfailure] at this

/-- The report of a run that ends accounts for all its modules, in their order. -/
theorem report_accounts_for_modules
    (h : (t.run root modules set).1 = .ok report) :
    ∃ shares : List Share, shares.map Share.module = modules ∧
      (∀ s ∈ shares, s.Fits root set) ∧
      (∀ before s after, shares = before ++ s :: after →
        (t.run root (before.map Share.module) set).2 = s.found) ∧
      report.manifest.paths = shares.flatMap Share.block ∧
      report.failures = shares.filterMap (fun s => s.failure.map (s.module.key, ·)) ∧
      (report.failures.map Prod.fst).Nodup ∧
      (report.isComplete = true ↔ report.failures = []) ∧
      (report.isComplete = true →
        report.manifest.paths = modules.flatMap fun m => (Plan.ofModule root m set).paths) := by
  have hkeys := FileTree.nodup_keys_of_run h
  rw [FileTree.run_of_nodup hkeys] at h
  obtain ⟨shares, rfl, hfits, hfound, hmanifest, hfailures⟩ := runModules_shares h
  simp only [Report.empty, Manifest.empty, List.nil_append] at hmanifest
  have hfailures' : report.failures = shares.filterMap Share.entry? := hfailures
  have hcomplete : report.isComplete = true ↔ report.failures = [] := List.isEmpty_iff
  refine ⟨shares, rfl, hfits, ?_, hmanifest, hfailures', ?_, hcomplete, ?_⟩
  · intro before s after hsplit
    have hbefore : ((before.map Share.module).map DemoModule.key).Nodup := by
      rw [hsplit, List.map_append, List.map_append] at hkeys
      exact (List.nodup_append.mp hkeys).1
    rw [FileTree.run_of_nodup hbefore]
    exact hfound before s after hsplit _
  · rw [hfailures']
    exact (keys_sublist shares).nodup hkeys
  · intro hdone
    have hnone := entries_eq_nil_iff.mp (hfailures'.symm.trans (hcomplete.mp hdone))
    rw [hmanifest, List.flatMap_map]
    rw [List.flatMap_def, List.flatMap_def,
      List.map_congr_left fun s hs => (hfits s hs).block_eq (hnone s hs)]

/-- Also where a module is blocked. -/
theorem report_accounts_for_blocked_module :
    ∃ report, (blockedTree.run ⟨"out"⟩ [waves, rings] plainSet).1 = .ok report ∧
      ∃ shares : List Share, shares.map Share.module = [waves, rings] ∧
        (∀ s ∈ shares, s.Fits ⟨"out"⟩ plainSet) ∧
        report.manifest.paths = shares.flatMap Share.block := by
  have hends : ∃ report, (blockedTree.run ⟨"out"⟩ [waves, rings] plainSet).1 = .ok report :=
    FileTree.exists_report (by decide) fun m _ x hx => plainSet_renders x hx m.bindings
  obtain ⟨report, hreport⟩ := hends
  obtain ⟨shares, hmodules, hfits, -, hmanifest, -⟩ := report_accounts_for_modules hreport
  exact ⟨report, hreport, shares, hmodules, hfits, hmanifest⟩

end DemoScaffold
