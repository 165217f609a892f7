import DemoScaffold.Proofs.Repetition
import DemoScaffold.Proofs.Run.Steps
import DemoScaffold.Proofs.Template.Faults

/-!
# Failing runs

A run that ends with an error has changed nothing. If its templates are plain, one that cannot be
rendered cannot be rendered for any module, because keys and display names are never empty; so the first
module already fails, before anything has been written.
-/

namespace DemoScaffold

variable {t : FileTree} {root : Path} {set : TemplateSet} {m n : DemoModule} {e : ToolError}
  {modules : List DemoModule} {x : Template} {b b' : Bindings}

/-! ## Templates -/

/-- Whether a template has no partials and no helper that looks at what a text says. -/
def Template.isPlain (x : Template) : Bool :=
  isPlainBody x.body

theorem entries_bindings (m : DemoModule) :
    m.bindings.entries = [("lower_name", m.key), ("upper_name", m.display)] := by
  have hbefore : Text.before "upper_name" "lower_name" = false := by decide
  simp [DemoModule.bindings, Bindings.ofList, Bindings.insert, Bindings.empty, Bindings.bind, hbefore]

/-- To a plain template all modules look alike. -/
theorem bindings_alike (m n : DemoModule) : Template.AlikeBindings m.bindings n.bindings := by
  rw [Template.AlikeBindings, entries_bindings, entries_bindings]
  refine .cons ?_ (.cons ?_ .nil)
  · exact iff_of_false m.key_ne_empty n.key_ne_empty
  · exact iff_of_false m.display_ne_empty n.display_ne_empty

theorem Template.render_alike (hx : x.isPlain = true) (h : AlikeBindings b b') :
    FailsAlike (x.render b) (x.render b') := by
  have hbody := renderBody_alike hx h
  rw [Template.render, Template.render]
  generalize renderBody x.body b = y at hbody
  generalize renderBody x.body b' = z at hbody
  cases hbody with
  | ok _ => exact .ok trivial
  | error fault => cases fault <;> exact .error _

/-- The set cannot be rendered for any module, because of the first template that fails. -/
def TemplateSet.FailsWith (set : TemplateSet) (e : ToolError) : Prop :=
  ∃ before x after, set.templates = before ++ x :: after ∧
    (∀ y ∈ before, ∀ m : DemoModule, ∃ s, y.render m.bindings = .ok s) ∧
    ∀ m : DemoModule, x.render m.bindings = .error e

theorem render_error_iff (hx : x.isPlain = true) (m n : DemoModule) :
    x.render m.bindings = .error e ↔ x.render n.bindings = .error e :=
  (Template.render_alike hx (bindings_alike m n)).error_iff e

theorem exists_render_of_exists_render (hx : x.isPlain = true)
    (h : ∃ s, x.render m.bindings = .ok s) (n : DemoModule) : ∃ s, x.render n.bindings = .ok s := by
  cases hrender : x.render n.bindings with
  | ok s => exact ⟨s, rfl⟩
  | error e =>
      obtain ⟨s, hs⟩ := h
      rw [(render_error_iff hx m n).mpr hrender] at hs
      cases hs

theorem render_plan_error_iff (hset : ∀ x ∈ set.templates, x.isPlain = true) (root : Path)
    (m : DemoModule) :
    (Plan.ofModule root m set).render m.bindings = .error e ↔ set.FailsWith e := by
  rw [Plan.render_ofModule_eq_error_iff, TemplateSet.FailsWith]
  constructor
  · rintro ⟨before, x, after, hsplit, hbefore, hx⟩
    refine ⟨before, x, after, hsplit, fun y hy n => ?_, fun n => ?_⟩
    · exact exists_render_of_exists_render (hset y (by simp [hsplit, hy])) (hbefore y hy) n
    · exact (render_error_iff (hset x (by simp [hsplit])) m n).mp hx
  · rintro ⟨before, x, after, hsplit, hbefore, hx⟩
    exact ⟨before, x, after, hsplit, fun y hy => hbefore y hy m, hx m⟩

/-- A set fails exactly if some template fails for some module. -/
theorem exists_failsWith_iff (hset : ∀ x ∈ set.templates, x.isPlain = true) :
    (∃ e, set.FailsWith e) ↔
      ∃ x ∈ set.templates, ∃ (m : DemoModule) (e : ToolError), x.render m.bindings = .error e := by
  constructor
  · rintro ⟨e, before, x, after, hsplit, -, hx⟩
    exact ⟨x, by simp [hsplit], waves, e, hx waves⟩
  · rintro ⟨x, hx, m, e, hrender⟩
    cases hplan : (Plan.ofModule ⟨""⟩ m set).render m.bindings with
    | error e' => exact ⟨e', (render_plan_error_iff hset ⟨""⟩ m).mp hplan⟩
    | ok files =>
        obtain ⟨s, hs⟩ := (Plan.exists_render_ofModule_iff ⟨""⟩ m set).mp ⟨files, hplan⟩ x hx
        rw [hs] at hrender
        cases hrender

/-! ## Runs -/

/-- Modules with plain templates fail at once or not at all. -/
theorem runModules_error_iff (hset : ∀ x ∈ set.templates, x.isPlain = true) (t : FileTree)
    (root : Path) (report : Report) :
    ((t.runModules root set report modules).1 = .error e ↔ modules ≠ [] ∧ set.FailsWith e) ∧
      ((t.runModules root set report modules).1 = .error e →
        (t.runModules root set report modules).2 = t) := by
  cases modules with
  | nil => simp [FileTree.runModules_nil]
  | cons m rest =>
      rw [← render_plan_error_iff hset root m]
      -- The first module is rendered before anything is written, and it decides for all others.
      cases hrender : (Plan.ofModule root m set).render m.bindings with
      | error e' =>
          rw [FileTree.runModules_cons_of_error hrender]
          simp
      | ok files =>
          have hall : ∀ n ∈ m :: rest, ∀ x ∈ set.templates, ∃ s, x.render n.bindings = .ok s := by
            intro n _ x hx
            have hm := (Plan.exists_render_ofModule_iff root m set).mp ⟨files, hrender⟩ x hx
            exact exists_render_of_exists_render (hset x hx) hm n
          obtain ⟨last, u, hrun⟩ := FileTree.exists_runModules t root report hall
          rw [hrun]
          simp

theorem repeated_key_cases {key : String}
    (h : firstRepeat? (modules.map DemoModule.key) = some key) :
    ∃ before m after, modules = before ++ m :: after ∧ (before.map DemoModule.key).Nodup ∧
      m.key ∈ before.map DemoModule.key ∧ key = m.key := by
  obtain ⟨front, back, hsplit, hnodup, hmem⟩ := firstRepeat?_eq_some_iff.mp h
  obtain ⟨before, rest, rfl, rfl, hrest⟩ := List.map_eq_append_iff.mp hsplit
  obtain ⟨m, after, rfl, rfl, -⟩ := List.map_eq_cons_iff.mp hrest
  exact ⟨before, m, after, rfl, hnodup, hmem, rfl⟩

/-- A run that ends with an error leaves the tree as it was. It does so exactly if a key repeats an
earlier one, or if there is a module and a template that cannot be rendered. -/
theorem run_error_iff (hset : ∀ x ∈ set.templates, x.isPlain = true) (t : FileTree) (root : Path)
    (modules : List DemoModule) :
    (∀ e, (t.run root modules set).1 = .error e → (t.run root modules set).2 = t) ∧
      (∀ e, (t.run root modules set).1 = .error e ↔
        (∃ before m after, modules = before ++ m :: after ∧ (before.map DemoModule.key).Nodup ∧
          m.key ∈ before.map DemoModule.key ∧ e = .duplicateModule m.key) ∨
        (modules.map DemoModule.key).Nodup ∧ modules ≠ [] ∧ set.FailsWith e) ∧
      ((∃ e, set.FailsWith e) ↔
        ∃ x ∈ set.templates, ∃ (m : DemoModule) (e : ToolError), x.render m.bindings = .error e) := by
  refine ⟨fun e h => ?_, fun e => ?_, exists_failsWith_iff hset⟩
  · cases hrepeat : firstRepeat? (modules.map DemoModule.key) with
    | some key => rw [FileTree.run_of_repeat hrepeat]
    | none =>
        rw [FileTree.run_of_nodup (firstRepeat?_eq_none_iff.mp hrepeat)] at h ⊢
        exact (runModules_error_iff hset t root .empty).2 h
  · cases hrepeat : firstRepeat? (modules.map DemoModule.key) with
    | some key =>
        have hkeys : ¬ (modules.map DemoModule.key).Nodup := fun h => by
          rw [firstRepeat?_eq_none_iff.mpr h] at hrepeat
          cases hrepeat
        rw [FileTree.run_of_repeat hrepeat]
        constructor
        · intro h
          cases h
          obtain ⟨before, m, after, hsplit, hbefore, hm, rfl⟩ := repeated_key_cases hrepeat
          exact .inl ⟨before, m, after, hsplit, hbefore, hm, rfl⟩
        · rintro (⟨before, m, after, hsplit, hbefore, hm, rfl⟩ | ⟨hnodup, -⟩)
          · have hfirst : firstRepeat? (modules.map DemoModule.key) = some m.key :=
              firstRepeat?_eq_some_iff.mpr ⟨before.map DemoModule.key, after.map DemoModule.key,
                by rw [hsplit, List.map_append, List.map_cons], hbefore, hm⟩
            rw [hrepeat] at hfirst
            cases hfirst
            rfl
          · exact absurd hnodup hkeys
    | none =>
        have hkeys := firstRepeat?_eq_none_iff.mp hrepeat
        rw [FileTree.run_of_nodup hkeys, (runModules_error_iff hset t root .empty).1]
        constructor
        · exact fun h => .inr ⟨hkeys, h⟩
        · rintro (⟨before, m, after, hsplit, -, hm, -⟩ | ⟨-, h⟩)
          · rw [hsplit, List.map_append, List.map_cons] at hkeys
            obtain ⟨-, -, hapart⟩ := List.nodup_append.mp hkeys
            exact absurd rfl (hapart _ hm _ List.mem_cons_self)
          · exact h

/-- A key that is repeated behind other modules stops the run before the first of them. -/
theorem run_of_repeated_key :
    blockedTree.run ⟨"out"⟩ [waves, rings, waves] plainSet =
      (.error (.duplicateModule "waves"), blockedTree) := by
  have hset : ∀ x ∈ plainSet.templates, x.isPlain = true := by decide
  obtain ⟨hatomic, herror, -⟩ := run_error_iff hset blockedTree ⟨"out"⟩ [waves, rings, waves]
  have h := (herror (.duplicateModule "waves")).mpr
    (.inl ⟨[waves, rings], waves, [], rfl, by decide, by decide, rfl⟩)
  exact Prod.ext h (hatomic _ h)

end DemoScaffold
