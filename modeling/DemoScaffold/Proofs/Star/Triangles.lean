import DemoScaffold.Star.Mesh

/-!
# Indices in threes

Indices are grouped into triangles exactly if their number is a multiple of three, and the triangles give
them back (`inThrees_eq_some_iff`, `exists_inThrees_iff`).
-/

namespace DemoScaffold

variable {α : Type} {l : List α} {ts : List (α × α × α)}

/-- The corners of some triangles, one triangle after the other. -/
def corners (ts : List (α × α × α)) : List α :=
  ts.flatMap fun t => [t.1, t.2.1, t.2.2]

theorem length_corners (ts : List (α × α × α)) : (corners ts).length = 3 * ts.length := by
  induction ts with
  | nil => rfl
  | cons t rest ih =>
      simp only [corners, List.flatMap_cons, List.length_append, List.length_cons, List.length_nil] at ih ⊢
      omega

theorem inThrees_corners (ts : List (α × α × α)) : inThrees (corners ts) = some ts := by
  induction ts with
  | nil => rfl
  | cons t rest ih =>
      simp only [corners] at ih
      simp [corners, inThrees, ih]

theorem eq_corners_of_inThrees (h : inThrees l = some ts) : l = corners ts := by
  induction l using inThrees.induct generalizing ts with
  | case1 =>
      cases h
      rfl
  | case2 a b c rest ih =>
      obtain ⟨more, hmore, rfl⟩ := Option.map_eq_some_iff.mp h
      rw [ih hmore]
      rfl
  | case3 l hnil hcons =>
      rw [inThrees] at h
      · cases h
      · exact hnil
      · exact hcons

theorem inThrees_eq_some_iff : inThrees l = some ts ↔ l = corners ts := by
  constructor
  · exact eq_corners_of_inThrees
  · rintro rfl
    exact inThrees_corners ts

theorem exists_inThrees_iff : (∃ ts, inThrees l = some ts) ↔ 3 ∣ l.length := by
  constructor
  · rintro ⟨ts, hts⟩
    rw [inThrees_eq_some_iff.mp hts, length_corners]
    exact Nat.dvd_mul_right 3 _
  · intro h
    induction l using inThrees.induct with
    | case1 => exact ⟨[], rfl⟩
    | case2 a b c rest ih =>
        have hrest : 3 ∣ rest.length := by
          simp only [List.length_cons] at h
          omega
        obtain ⟨ts, hts⟩ := ih hrest
        exact ⟨(a, b, c) :: ts, by simp [inThrees, hts]⟩
    | case3 l hnil hcons =>
        exfalso
        match l with
        | [] => exact hnil rfl
        | [a] => simp at h
        | [a, b] => simp at h
        | a :: b :: c :: rest => exact hcons a b c rest rfl

end DemoScaffold
