import DemoScaffold.Proofs.Run.Siblings

/-!
# Repeated runs

A run that is repeated in the tree that it has left changes nothing and reports the same. The trees that
the modules of the second run find are all the last tree of the first one, in which every module finds
its directory and its files as it left them.
-/

namespace DemoScaffold

variable {t u : FileTree} {root : Path} {set : TemplateSet} {report : Report}
  {modules : List DemoModule}

/-- What a report says apart from the causes of failures: the manifest and the keys that failed. -/
def Report.digest (r : Report) : Manifest × List String :=
  (r.manifest, r.failures.map Prod.fst)

theorem digest_eq_iff {r r' : Report} :
    r.digest = r'.digest ↔ r.manifest.paths = r'.manifest.paths ∧ r.failedKeys = r'.failedKeys := by
  obtain ⟨⟨paths⟩, outcomes⟩ := r
  obtain ⟨⟨paths'⟩, outcomes'⟩ := r'
  simp [Report.digest, Report.failedKeys]

namespace FileTree

/-- A run that goes on from two reports with one digest, the second time in the tree that it left. -/
theorem runModules_again (hset : ∀ x ∈ set.templates, '/' ∉ x.suffix.toList)
    (hkeys : (modules.map DemoModule.key).Nodup) (t : FileTree) {report report' : Report}
    (hdigest : report'.digest = report.digest)
    (hu : (t.runModules root set report modules).2 = u) :
    (u.runModules root set report' modules).2 = u ∧
      (u.runModules root set report' modules).1.map Report.digest =
        (t.runModules root set report modules).1.map Report.digest := by
  induction modules generalizing t report report' with
  | nil => exact ⟨rfl, congrArg Except.ok hdigest⟩
  | cons m rest ih =>
      obtain ⟨hm, hrest⟩ := List.nodup_cons.mp hkeys
      cases hrender : (Plan.ofModule root m set).render m.bindings with
      | error e =>
          rw [runModules_cons_of_error hrender, runModules_cons_of_error hrender]
          exact ⟨rfl, rfl⟩
      | ok files =>
          obtain ⟨failure, next, hstops, hmanifest, hfailures, hnext⟩ :=
            runModules_cons hset hrender t report
          obtain ⟨failure', next', hstops', hmanifest', hfailures', hnext'⟩ :=
            runModules_cons hset hrender u report'
          rw [hnext] at hu
          have hne : ∀ n ∈ rest, n.key ≠ m.key := fun n hn heq =>
            hm (heq ▸ List.mem_map_of_mem hn)
          -- The modules behind leave the directory alone, so the last tree holds it as this step left it.
          have hkept := Keeps.runModules hset root
            (t.scaffoldTree (Plan.ofModule root m set).directory files) next rest
          have halike := alikeAt_runModules hset root
            (t.scaffoldTree (Plan.ofModule root m set).directory files) next hne
          rw [hu] at hkept halike
          rw [← Plan.lastSegment_directory root m set] at halike
          obtain ⟨hfiles, hfails, htree⟩ := scaffold_again (Plan.liesIn_directory root m set)
            (Plan.liesIn_of_render hset hrender) hkept halike
          obtain ⟨hpaths, hkeys⟩ := digest_eq_iff.mp hdigest
          rw [hnext, hnext', htree]
          refine ih hrest _ (digest_eq_iff.mpr ⟨?_, ?_⟩) hu
          · rw [hmanifest, hmanifest', hfiles, hpaths]
          · rw [failedKeys_append hfailures, failedKeys_append hfailures', hstops.isSome,
              hstops'.isSome, hfails, hkeys]

end FileTree

/-- A run from the tree that the same run has left keeps that tree, and ends with the same manifest and
the same failed keys, or with the same error. -/
theorem run_again (hset : ∀ x ∈ set.templates, '/' ∉ x.suffix.toList) (t : FileTree) (root : Path)
    (modules : List DemoModule) :
    ((t.run root modules set).2.run root modules set).2 = (t.run root modules set).2 ∧
      ((t.run root modules set).2.run root modules set).1.map Report.digest =
        (t.run root modules set).1.map Report.digest := by
  cases hrepeat : firstRepeat? (modules.map DemoModule.key) with
  | some key =>
      rw [FileTree.run_of_repeat hrepeat, FileTree.run_of_repeat hrepeat]
      exact ⟨rfl, rfl⟩
  | none =>
      have hkeys := firstRepeat?_eq_none_iff.mp hrepeat
      rw [FileTree.run_of_nodup hkeys, FileTree.run_of_nodup hkeys]
      exact FileTree.runModules_again hset hkeys t rfl rfl

/-- A module that was blocked stays blocked. -/
theorem run_again_of_blocked_module :
    ((blockedTree.run ⟨"out"⟩ [waves, rings] plainSet).2.run ⟨"out"⟩ [waves, rings] plainSet).2 =
        (blockedTree.run ⟨"out"⟩ [waves, rings] plainSet).2 ∧
      ((blockedTree.run ⟨"out"⟩ [waves, rings] plainSet).2.run ⟨"out"⟩ [waves, rings]
          plainSet).1.map Report.digest =
        (blockedTree.run ⟨"out"⟩ [waves, rings] plainSet).1.map Report.digest :=
  run_again (by decide) blockedTree ⟨"out"⟩ [waves, rings]

end DemoScaffold
