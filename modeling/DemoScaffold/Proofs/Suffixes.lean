import DemoScaffold.Proofs.Run.Complete

/-!
# Suffixes

Where the file of a template lies depends on its suffix, which may be any text. Up to its first slash the
suffix belongs to the name of the file; what follows leads on from there. So templates of different kinds
can have one file, and a file can lie outside of the directory of its module.
-/

namespace DemoScaffold

/-- Where a suffix leads to: the end of a file's name, and the components behind it. -/
def Template.ending (x : Template) : String × List Path.Component :=
  match (⟨x.suffix⟩ : Path).segments with
  | [] => ("", [])
  | first :: more => (first, more.filterMap Path.Component.ofSegment?)

theorem Template.ending_of_noSlash {x : Template} (h : '/' ∉ x.suffix.toList) :
    x.ending = (x.suffix, []) := by
  rw [Template.ending, Path.segments_eq_singleton h]
  rfl

namespace Plan

variable {root : Path} {set : TemplateSet} {m : DemoModule} {x : Template}

theorem components_path (root : Path) (m : DemoModule) (set : TemplateSet) (x : Template) :
    ((ofModule root m set).directory.join ⟨m.key ++ "." ++ x.suffix⟩).components =
      (ofModule root m set).directory.components ++
        .normal (m.key ++ "." ++ x.ending.1) :: x.ending.2 := by
  have hslash : '/' ∉ (m.key ++ ".").toList := by
    simp [m.slash_notMem_key]
  obtain ⟨first, more, hsuffix, hname⟩ := Path.segments_append hslash x.suffix
  obtain ⟨hidle, hup⟩ := m.notIdle_key_append ("." ++ first)
  rw [← String.append_assoc] at hidle hup
  have hlead : (⟨m.key ++ "." ++ x.suffix⟩ : Path).lead = none := by
    have hempty : m.key ++ "." ++ first ≠ "" := by
      intro h
      rw [h] at hidle
      exact absurd hidle (by decide)
    have hdot : m.key ++ "." ++ first ≠ "." := by
      intro h
      rw [h] at hidle
      exact absurd hidle (by decide)
    rw [Path.lead_of_cons hname, if_neg fun h => hempty h.1, if_neg hdot]
  have habsolute : (⟨m.key ++ "." ++ x.suffix⟩ : Path).isAbsolute = false := by
    simp [Path.isAbsolute, hlead]
  have hfirst : Path.Component.ofSegment? (m.key ++ "." ++ first) =
      some (.normal (m.key ++ "." ++ first)) := by
    rw [Path.Component.ofSegment?, hidle, if_neg (by decide), if_neg hup]
  rw [Path.components_join habsolute fun _ => hlead, hname, List.filterMap_cons_some hfirst,
    Template.ending, hsuffix]

theorem components_paths (root : Path) (m : DemoModule) (set : TemplateSet) :
    (ofModule root m set).paths.map Path.components = set.templates.map fun x =>
      (ofModule root m set).directory.components ++
        .normal (m.key ++ "." ++ x.ending.1) :: x.ending.2 := by
  rw [paths, ofModule, List.map_map, List.map_map]
  exact List.map_congr_left fun x _ => components_path root m set x

/-- The files of a plan are different exactly if the endings of its templates are. -/
theorem nodup_paths_iff (root : Path) (m : DemoModule) (set : TemplateSet) :
    ((ofModule root m set).paths.map Path.components).Nodup ↔
      (set.templates.map Template.ending).Nodup := by
  have hinjective : Function.Injective fun e : String × List Path.Component =>
      (ofModule root m set).directory.components ++
        .normal (m.key ++ "." ++ e.1) :: e.2 := by
    rintro ⟨first, more⟩ ⟨first', more'⟩ h
    simpa using h
  have hcomponents : (ofModule root m set).paths.map Path.components =
      (set.templates.map Template.ending).map fun e =>
        (ofModule root m set).directory.components ++ .normal (m.key ++ "." ++ e.1) :: e.2 := by
    rw [components_paths, List.map_map]
    rfl
  rw [hcomponents, List.nodup_map_iff hinjective]

/-- A file lies directly in the directory of its module exactly if nothing follows the end of its name. -/
theorem directly_inside_iff (root : Path) (m : DemoModule) (set : TemplateSet) (x : Template) :
    (∃ name, ((ofModule root m set).directory.join ⟨m.key ++ "." ++ x.suffix⟩).components =
        (ofModule root m set).directory.components ++ [.normal name]) ↔ x.ending.2 = [] := by
  rw [components_path]
  constructor
  · rintro ⟨name, h⟩
    exact (List.cons.inj (List.append_cancel_left h)).2
  · intro h
    exact ⟨_, by rw [h]⟩

end Plan

variable {root : Path} {set : TemplateSet}

/-- Exactly if the endings of its templates are different, the files of every plan are different, and
exactly if nothing follows the names in them, all files lie directly in the directories of their modules.
Different suffixes without slashes are such endings; then a complete run leaves one file for every module
and every template. -/
theorem files_apart_iff (root : Path) (set : TemplateSet) :
    (∀ m, ((Plan.ofModule root m set).paths.map Path.components).Nodup ↔
      (set.templates.map Template.ending).Nodup) ∧
    (∀ m, (∀ path ∈ (Plan.ofModule root m set).paths, ∃ name, path.components =
        (Plan.ofModule root m set).directory.components ++ [.normal name]) ↔
      ∀ x ∈ set.templates, x.ending.2 = []) ∧
    ((∀ x ∈ set.templates, '/' ∉ x.suffix.toList) → (set.templates.map Template.suffix).Nodup →
      (set.templates.map Template.ending).Nodup ∧ (∀ x ∈ set.templates, x.ending.2 = []) ∧
      ∀ t u modules report, FileTree.run t root modules set = (.ok report, u) →
        report.isComplete = true → ∀ m ∈ modules, ∀ x ∈ set.templates,
          ∃ s, x.render m.bindings = .ok s ∧
            u.find ((root.join ⟨m.key⟩).join ⟨m.key ++ "." ++ x.suffix⟩) =
              .ok (.file (Text.Utf8.encode s.toList))) := by
  refine ⟨fun m => Plan.nodup_paths_iff root m set, fun m => ?_, fun hset hdistinct => ⟨?_, ?_, ?_⟩⟩
  · have hpaths : (Plan.ofModule root m set).paths = set.templates.map fun x =>
        (Plan.ofModule root m set).directory.join ⟨m.key ++ "." ++ x.suffix⟩ := by
      rw [Plan.paths, Plan.ofModule, List.map_map]
      rfl
    rw [hpaths, List.forall_mem_map]
    exact forall₂_congr fun x _ => Plan.directly_inside_iff root m set x
  · have hendings : set.templates.map Template.ending =
        (set.templates.map Template.suffix).map fun s => (s, []) := by
      rw [List.map_map]
      exact List.map_congr_left fun x hx => Template.ending_of_noSlash (hset x hx)
    rw [hendings]
    exact hdistinct.map fun s s' h => (Prod.mk.inj h).1
  · intro x hx
    rw [Template.ending_of_noSlash (hset x hx)]
  · intro t u modules report hrun hcomplete m hm x hx
    exact find_of_complete hset hdistinct hrun (List.isEmpty_iff.mp hcomplete) hm hx

/-- A template whose file lies outside of the directory of its module. -/
def strayingSet : TemplateSet :=
  ⟨[⟨.source, "", "d/../../lost"⟩], by decide⟩

/-- Templates of different kinds can have the same suffix, and then a complete run leaves one file for
both; and a suffix can lead out of the directory. -/
theorem twins_collide_and_strays_escape :
    (FileTree.empty.run ⟨"out"⟩ [waves] twinSet).1.map Report.isComplete = .ok true ∧
      ¬ ((Plan.ofModule ⟨"out"⟩ waves twinSet).paths.map Path.components).Nodup ∧
      (FileTree.empty.run ⟨"out"⟩ [waves] twinSet).2.filesUnder ⟨"out"⟩ = [⟨"out/waves/waves.txt"⟩] ∧
      ¬ ∀ path ∈ (Plan.ofModule ⟨"out"⟩ waves strayingSet).paths, ∃ name, path.components =
        (Plan.ofModule ⟨"out"⟩ waves strayingSet).directory.components ++ [.normal name] := by
  refine ⟨by decide +kernel, by decide +kernel, by decide +kernel, ?_⟩
  intro h
  obtain ⟨name, hname⟩ := h _ List.mem_cons_self
  have hlength := congrArg List.length hname
  rw [List.length_append, List.length_singleton] at hlength
  exact absurd hlength (by decide +kernel)

end DemoScaffold
