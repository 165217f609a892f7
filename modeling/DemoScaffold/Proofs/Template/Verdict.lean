import DemoScaffold.Proofs.Bindings
import DemoScaffold.Proofs.Run.Failing

/-!
# Whether a template can be rendered

The texts that a plain template is given do not decide whether it can be rendered, nor how it fails: only
which names are bound decides, and which of them to the empty text (`render_whatever_texts`). So no text
can steer a condition, a repetition or the choice of a marker that is reported.
-/

namespace DemoScaffold

namespace Template

theorem fieldwise_of_names {α β : Type} {R : α → β → Prop} {es : List (String × α)}
    {fs : List (String × β)} (hnames : es.map Prod.fst = fs.map Prod.fst)
    (h : ∀ name a b, (name, a) ∈ es → (name, b) ∈ fs → R a b) : Fieldwise R es fs := by
  induction es generalizing fs with
  | nil =>
      obtain rfl := List.map_eq_nil_iff.mp hnames.symm
      exact .nil
  | cons e rest ih =>
      obtain ⟨⟨name, b⟩, fs, rfl, hname, hrest⟩ := List.map_eq_cons_iff.mp hnames.symm
      obtain ⟨other, a⟩ := e
      obtain rfl : name = other := hname
      refine .cons (h name a b List.mem_cons_self List.mem_cons_self) (ih hrest.symm ?_)
      exact fun name a b ha hb => h name a b (List.mem_cons_of_mem _ ha) (List.mem_cons_of_mem _ hb)

/-- Bindings in order are alike if they bind the same names, and the same ones to the empty text. -/
theorem alikeBindings_of_get? {b b' : Bindings} (hb : Bindings.InOrder b.entries)
    (hb' : Bindings.InOrder b'.entries)
    (hnames : ∀ name, (b.get? name).isSome = (b'.get? name).isSome)
    (hempty : ∀ name, b.get? name = some "" ↔ b'.get? name = some "") : AlikeBindings b b' := by
  refine fieldwise_of_names (Bindings.map_fst_eq hb hb' fun name => ?_) fun name s t hs ht => ?_
  · rw [← Bindings.isSome_get?_iff hb, ← Bindings.isSome_get?_iff hb', hnames]
  · rw [← Bindings.get?_eq_some_iff hb] at hs
    rw [← Bindings.get?_eq_some_iff hb'] at ht
    simpa [hs, ht] using hempty name

end Template

/-- A plain template is rendered with both of two collections of bindings, or fails with both in the same
way, if they bind the same names and the same ones of them to the empty text. An error carries the kind of
the template and, if it is about a marker that is not bound, that marker. -/
theorem Template.render_whatever_texts {x : Template} (hx : x.isPlain = true)
    (pairs pairs' : List (String × String))
    (hnames : ∀ name, ((Bindings.ofList pairs).get? name).isSome =
      ((Bindings.ofList pairs').get? name).isSome)
    (hempty : ∀ name, (Bindings.ofList pairs).get? name = some "" ↔
      (Bindings.ofList pairs').get? name = some "") :
    ((∃ s, x.render (.ofList pairs) = .ok s) ↔ ∃ s, x.render (.ofList pairs') = .ok s) ∧
      ∀ e, x.render (.ofList pairs) = .error e ↔ x.render (.ofList pairs') = .error e := by
  have halike := Template.alikeBindings_of_get? (Bindings.inOrder_ofList pairs)
    (Bindings.inOrder_ofList pairs') hnames hempty
  have hrender := Template.render_alike hx halike
  refine ⟨?_, hrender.error_iff⟩
  generalize x.render (.ofList pairs) = y at hrender
  generalize x.render (.ofList pairs') = z at hrender
  cases hrender with
  | error e => simp
  | ok _ => simp

/-- A template with a marker that is not bound where it stands: in a repetition within a condition. -/
def roundsTemplate : Template :=
  .ofBody .source "\x7b\x7b#if a\x7d\x7d\x7b\x7b#each this\x7d\x7d\x7b\x7bthis\x7d\x7d;\x7b\x7bb\x7d\x7d\x7b\x7b/each\x7d\x7d\x7b\x7b/if\x7d\x7d"

/-- Whatever two texts are bound, the same marker is reported. -/
theorem rounds_whatever_texts :
    let pairs := [("a", "A"), ("b", "B")]
    let pairs' := [("b", "\x7b\x7bc\x7d\x7d"), ("a", "\"\n")]
    (∀ name, ((Bindings.ofList pairs).get? name).isSome = ((Bindings.ofList pairs').get? name).isSome) ∧
      (∀ name, (Bindings.ofList pairs).get? name = some "" ↔
        (Bindings.ofList pairs').get? name = some "") ∧
      roundsTemplate.render (.ofList pairs) = .error (.unboundPlaceholder .source "b") ∧
      roundsTemplate.render (.ofList pairs') = .error (.unboundPlaceholder .source "b") := by
  intro pairs pairs'
  have hentries : (Bindings.ofList pairs).entries = [("a", "A"), ("b", "B")] := by decide +kernel
  have hentries' : (Bindings.ofList pairs').entries =
      [("a", "\"\n"), ("b", "\x7b\x7bc\x7d\x7d")] := by decide +kernel
  have hnames : ∀ name, ((Bindings.ofList pairs).get? name).isSome =
      ((Bindings.ofList pairs').get? name).isSome := fun name => by
    rw [Bool.eq_iff_iff, Bindings.isSome_get?_iff (Bindings.inOrder_ofList pairs),
      Bindings.isSome_get?_iff (Bindings.inOrder_ofList pairs'), hentries, hentries']
    rfl
  have hempty : ∀ name, (Bindings.ofList pairs).get? name = some "" ↔
      (Bindings.ofList pairs').get? name = some "" := fun name => by
    rw [Bindings.get?_eq_some_iff (Bindings.inOrder_ofList pairs),
      Bindings.get?_eq_some_iff (Bindings.inOrder_ofList pairs'), hentries, hentries']
    simp
  have hrender : roundsTemplate.render (.ofList pairs) = .error (.unboundPlaceholder .source "b") := by
    decide +kernel
  obtain ⟨-, herror⟩ := Template.render_whatever_texts (x := roundsTemplate) (by decide +kernel) pairs
    pairs' hnames hempty
  exact ⟨hnames, hempty, hrender, (herror _).mp hrender⟩

end DemoScaffold
