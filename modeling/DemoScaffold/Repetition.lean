/-!
# Repetitions

The first element of a list that repeats an earlier one. There is none exactly if the elements are
distinct (`firstRepeat?_eq_none_iff`).
-/

namespace DemoScaffold

/-- The first element that is among `seen` or equal to an earlier one. -/
def firstRepeatAfter? {α : Type} [DecidableEq α] (seen : List α) : List α → Option α
  | [] => none
  | x :: rest => if x ∈ seen then some x else firstRepeatAfter? (x :: seen) rest

/-- The first element that is equal to an earlier one. -/
def firstRepeat? {α : Type} [DecidableEq α] (xs : List α) : Option α :=
  firstRepeatAfter? [] xs

theorem firstRepeatAfter?_eq_none_iff {α : Type} [DecidableEq α] {seen xs : List α} :
    firstRepeatAfter? seen xs = none ↔ (∀ x ∈ xs, x ∉ seen) ∧ xs.Nodup := by
  induction xs generalizing seen with
  | nil => simp [firstRepeatAfter?]
  | cons x rest ih =>
    by_cases hx : x ∈ seen
    · simp [firstRepeatAfter?, hx]
    · rw [firstRepeatAfter?, if_neg hx, ih, List.forall_mem_cons, List.nodup_cons]
      constructor
      · rintro ⟨h, hn⟩
        exact ⟨⟨hx, fun y hy hs => h y hy (List.mem_cons_of_mem _ hs)⟩,
          fun hm => h x hm List.mem_cons_self, hn⟩
      · rintro ⟨⟨_, h⟩, hm, hn⟩
        refine ⟨fun y hy hs => ?_, hn⟩
        rcases List.mem_cons.1 hs with rfl | hs
        · exact hm hy
        · exact h y hy hs

/-- No element is repeated exactly if the elements are distinct. -/
theorem firstRepeat?_eq_none_iff {α : Type} [DecidableEq α] {xs : List α} :
    firstRepeat? xs = none ↔ xs.Nodup := by
  simp [firstRepeat?, firstRepeatAfter?_eq_none_iff]

end DemoScaffold
