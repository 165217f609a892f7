import DemoScaffold.Config.Basic
import DemoScaffold.Proofs.Path.Stripping
import DemoScaffold.Proofs.Suffixes

/-!
# The paths that are shown

A manifest is shown as seen from a root: what is left of its paths without the root, or the paths
themselves where they do not begin with it. For planned files nothing is lost by that, whatever the texts of
the root, the base directory and the suffixes: seen from the root again, what is shown leads to the planned
path (`shown_paths_lead_back`).
-/

namespace DemoScaffold

namespace Path

variable {p q root : Path}

theorem isAbsolute_of_prefix (hq : q.isAbsolute = true) (h : q.components <+: p.components) :
    p.isAbsolute = true := by
  obtain ⟨more, hmore⟩ := h
  rw [isAbsolute_iff] at hq ⊢
  rw [← hmore, List.head?_append, hq, Option.some_or]

/-- What is joined to a root stands alone or goes on from the root. -/
theorem join_cases (root q : Path) :
    q.isAbsolute = true ∧ root.join q = q ∨ root.components <+: (root.join q).components := by
  by_cases hq : q.isAbsolute = true
  · exact .inl ⟨hq, by rw [join, hq, Bool.true_or, if_pos rfl]⟩
  · right
    by_cases hbase : root.base = []
    · rw [components_of_base hbase]
      exact List.nil_prefix
    · rw [components_join (by simpa using hq) fun h => absurd h hbase]
      exact List.prefix_append _ _

/-- What is shown of a path that is absolute or begins with the root leads from the root to that path. -/
theorem components_join_shown (h : p.isAbsolute = true ∨ root.components <+: p.components) :
    (root.join ((p.relativeTo? root).getD p)).components = p.components := by
  cases hshown : p.relativeTo? root with
  | some q => exact components_join_relativeTo hshown
  | none =>
      rcases h with habsolute | hbegins
      · rw [Option.getD_none, join, habsolute, Bool.true_or, if_pos rfl]
      · have hsome := (isSome_relativeTo?_iff p root).mpr hbegins
        rw [hshown] at hsome
        cases hsome

end Path

variable {t u : FileTree} {root p : Path} {c : Config} {set : TemplateSet} {report : Report}
  {m : DemoModule} {modules : List DemoModule}

theorem Plan.prefix_of_mem_paths (h : p ∈ (Plan.ofModule root m set).paths) :
    root.components <+: p.components := by
  have hcomponents := List.mem_map_of_mem (f := Path.components) h
  rw [Plan.components_paths, Plan.components_directory] at hcomponents
  obtain ⟨x, -, hx⟩ := List.mem_map.mp hcomponents
  rw [← hx, List.append_assoc]
  exact List.prefix_append _ _

theorem Plan.components_join_shown (h : p ∈ (Plan.ofModule (c.outputDir root) m set).paths) :
    (root.join ((p.relativeTo? root).getD p)).components = p.components := by
  have hplanned := Plan.prefix_of_mem_paths h
  refine Path.components_join_shown ?_
  rcases Path.join_cases root c.baseDir with ⟨habsolute, halone⟩ | hbegins
  · rw [Config.outputDir, halone] at hplanned
    exact .inl (Path.isAbsolute_of_prefix habsolute hplanned)
  · exact .inr (hbegins.trans hplanned)

theorem planned_of_mem_manifest (h : t.run root modules set = (.ok report, u))
    (hp : p ∈ report.manifest.paths) : ∃ m ∈ modules, p ∈ (Plan.ofModule root m set).paths := by
  have hok : (t.run root modules set).1 = .ok report := by rw [h]
  rw [FileTree.run_of_nodup (FileTree.nodup_keys_of_run hok)] at hok
  obtain ⟨shares, rfl, hfits, -, hmanifest, -⟩ := runModules_shares hok
  rw [hmanifest] at hp
  obtain ⟨s, hs, hblock⟩ := List.mem_flatMap.mp (by simpa [Report.empty, Manifest.empty] using hp)
  exact ⟨s.module, List.mem_map_of_mem hs, (hfits s hs).isBeginning.subset hblock⟩

/-- What is shown of a manifest is one path for each that it lists, in their order, and it depends on that
path alone. If it is a planned one, joining what is shown to the root gives it back, component by component.
All paths that a run lists are planned ones. -/
theorem shown_paths_lead_back (root : Path) (c : Config) (set : TemplateSet) :
    (∀ manifest : Manifest, List.Forall₂ (fun p q => Manifest.relativeTo ⟨[p]⟩ root = [q] ∧
        ∀ m, p ∈ (Plan.ofModule (c.outputDir root) m set).paths →
          (root.join q).components = p.components)
      manifest.paths (manifest.relativeTo root)) ∧
    ∀ t u modules report, FileTree.run t (c.outputDir root) modules set = (.ok report, u) →
      List.Forall₂ (fun p q => (root.join q).components = p.components)
        report.manifest.paths (report.manifest.relativeTo root) := by
  constructor
  · intro manifest
    rw [Manifest.relativeTo, List.forall₂_map_right_iff]
    exact List.forall₂_same.mpr fun p _ => ⟨rfl, fun m hp => Plan.components_join_shown hp⟩
  · intro t u modules report hrun
    rw [Manifest.relativeTo, List.forall₂_map_right_iff]
    refine List.forall₂_same.mpr fun p hp => ?_
    obtain ⟨m, -, hplanned⟩ := planned_of_mem_manifest hrun hp
    exact Plan.components_join_shown hplanned

/-- Dots and slashes of the root's end are left out, those behind them stay. -/
example : Manifest.relativeTo ⟨[⟨"./a//b/.//fog/fog.cpp"⟩, ⟨"/a/b"⟩]⟩ ⟨"./a/."⟩ =
    [⟨"b/.//fog/fog.cpp"⟩, ⟨"/a/b"⟩] := by decide

end DemoScaffold
