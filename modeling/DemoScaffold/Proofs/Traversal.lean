import Mathlib.Data.List.Forall2

/-!
# Traversals that can fail

A list is gone through element by element. This succeeds exactly if it does at every element, and otherwise
it fails like the first element that fails (`mapM_eq_ok_iff`, `mapM_eq_error_iff`).
-/

namespace DemoScaffold

variable {ε α β : Type} {f : α → Except ε β} {xs : List α} {ys : List β} {x : α} {y : β} {e : ε}

theorem mapM_cons_of_error (h : f x = .error e) (xs : List α) : (x :: xs).mapM f = .error e := by
  rw [List.mapM_cons, h]
  rfl

theorem mapM_cons_of_ok (h : f x = .ok y) (xs : List α) :
    (x :: xs).mapM f = (xs.mapM f).map (y :: ·) := by
  rw [List.mapM_cons, h]
  cases xs.mapM f <;> rfl

theorem mapM_eq_ok_iff : xs.mapM f = .ok ys ↔ List.Forall₂ (fun x y => f x = .ok y) xs ys := by
  induction xs generalizing ys with
  | nil => cases ys <;> simp [pure, Except.pure]
  | cons x xs ih =>
      rw [List.forall₂_cons_left_iff]
      cases hx : f x with
      | error e => simp [mapM_cons_of_error hx]
      | ok y =>
          rw [mapM_cons_of_ok hx]
          cases hxs : xs.mapM f with
          | error e => simp [Except.map, ← ih, hxs]
          | ok more => simp [Except.map, ← ih, hxs, eq_comm]

theorem exists_mapM_eq_ok_iff : (∃ ys, xs.mapM f = .ok ys) ↔ ∀ x ∈ xs, ∃ y, f x = .ok y := by
  induction xs with
  | nil => exact iff_of_true ⟨[], rfl⟩ (by simp)
  | cons x xs ih =>
      rw [List.forall_mem_cons, ← ih]
      cases hx : f x with
      | error e => simp [mapM_cons_of_error hx]
      | ok y =>
          rw [mapM_cons_of_ok hx]
          cases xs.mapM f <;> simp [Except.map]

/-- The error is that of the first element that has one. -/
theorem mapM_eq_error_iff :
    xs.mapM f = .error e ↔
      ∃ before x after, xs = before ++ x :: after ∧ (∀ y ∈ before, ∃ z, f y = .ok z) ∧ f x = .error e := by
  induction xs with
  | nil => simp [pure, Except.pure]
  | cons x xs ih =>
      constructor
      · intro h
        cases hx : f x with
        | error e' =>
            rw [mapM_cons_of_error hx] at h
            cases h
            exact ⟨[], x, xs, rfl, by simp, hx⟩
        | ok y =>
            rw [mapM_cons_of_ok hx] at h
            cases hxs : xs.mapM f with
            | ok more =>
                rw [hxs] at h
                cases h
            | error e' =>
                rw [hxs] at h
                cases h
                obtain ⟨before, z, after, rfl, hbefore, hz⟩ := ih.mp hxs
                exact ⟨x :: before, z, after, rfl, List.forall_mem_cons.mpr ⟨⟨y, hx⟩, hbefore⟩, hz⟩
      · rintro ⟨before, z, after, hsplit, hbefore, hz⟩
        cases before with
        | nil =>
            obtain ⟨rfl, rfl⟩ := List.cons.inj hsplit
            exact mapM_cons_of_error hz xs
        | cons w more =>
            obtain ⟨rfl, rfl⟩ := List.cons.inj hsplit
            obtain ⟨⟨y, hy⟩, hmore⟩ := List.forall_mem_cons.mp hbefore
            rw [mapM_cons_of_ok hy, ih.mpr ⟨more, z, after, rfl, hmore, hz⟩]
            rfl

end DemoScaffold
