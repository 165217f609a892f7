import Mathlib.Data.List.Basic

/-!
# Spans

What a list begins with is taken off it up to the first element that fails a test (`takeWhile_stop`,
`dropWhile_stop`), so in particular up to a separator (`takeWhile_ne`, `dropWhile_ne`).
-/

namespace DemoScaffold

variable {α : Type} {p : α → Bool} {l rest : List α} {a : α}

theorem takeWhile_stop (hl : ∀ x ∈ l, p x = true) (ha : p a = false) :
    (l ++ a :: rest).takeWhile p = l := by
  rw [List.takeWhile_append_of_pos hl]
  simp [ha]

theorem dropWhile_stop (hl : ∀ x ∈ l, p x = true) (ha : p a = false) :
    (l ++ a :: rest).dropWhile p = a :: rest := by
  rw [List.dropWhile_append_of_pos hl]
  simp [ha]

variable [DecidableEq α]

theorem decide_ne_of_notMem (h : a ∉ l) : ∀ x ∈ l, decide (x ≠ a) = true := by
  intro x hx
  apply decide_eq_true
  rintro rfl
  exact h hx

theorem takeWhile_ne (h : a ∉ l) (rest : List α) : (l ++ a :: rest).takeWhile (· ≠ a) = l :=
  takeWhile_stop (decide_ne_of_notMem h) (by simp)

theorem dropWhile_ne (h : a ∉ l) (rest : List α) : (l ++ a :: rest).dropWhile (· ≠ a) = a :: rest :=
  dropWhile_stop (decide_ne_of_notMem h) (by simp)

end DemoScaffold
