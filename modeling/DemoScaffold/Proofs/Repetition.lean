import DemoScaffold.Repetition

/-!
# First repetitions

The first repetition is the element behind the longest beginning without repetitions.
-/

namespace DemoScaffold

variable {α : Type} {xs seen rest : List α} {k x : α}

/-- An element is the first of a list that has been seen before, or stands in the list before. -/
def RepeatsAfter (seen xs : List α) (k : α) : Prop :=
  ∃ before after, xs = before ++ k :: after ∧ before.Nodup ∧ (∀ y ∈ before, y ∉ seen) ∧
    (k ∈ seen ∨ k ∈ before)

theorem repeatsAfter_cons_of_mem (hx : x ∈ seen) : RepeatsAfter seen (x :: rest) k ↔ x = k := by
  constructor
  · rintro ⟨before, after, hsplit, -, hbefore, -⟩
    cases before with
    | nil => exact (List.cons.inj hsplit).1
    | cons y more =>
        obtain ⟨rfl, -⟩ := List.cons.inj hsplit
        exact absurd hx (hbefore _ List.mem_cons_self)
  · rintro rfl
    exact ⟨[], rest, rfl, List.nodup_nil, by simp, .inl hx⟩

theorem RepeatsAfter.cons (hx : x ∉ seen) (h : RepeatsAfter (x :: seen) rest k) :
    RepeatsAfter seen (x :: rest) k := by
  obtain ⟨before, after, rfl, hnodup, hbefore, hk⟩ := h
  have hfresh : ∀ y ∈ before, y ≠ x ∧ y ∉ seen := fun y hy => by simpa using hbefore y hy
  refine ⟨x :: before, after, rfl, List.nodup_cons.mpr ⟨fun hmem => (hfresh x hmem).1 rfl, hnodup⟩,
    List.forall_mem_cons.mpr ⟨hx, fun y hy => (hfresh y hy).2⟩, ?_⟩
  rw [List.mem_cons] at hk ⊢
  rcases hk with (rfl | hseen) | hbefore
  · exact .inr (.inl rfl)
  · exact .inl hseen
  · exact .inr (.inr hbefore)

theorem RepeatsAfter.of_cons (hx : x ∉ seen) (h : RepeatsAfter seen (x :: rest) k) :
    RepeatsAfter (x :: seen) rest k := by
  obtain ⟨before, after, hsplit, hnodup, hbefore, hk⟩ := h
  cases before with
  | nil =>
      obtain ⟨rfl, -⟩ := List.cons.inj hsplit
      rcases hk with hk | hk
      · exact absurd hk hx
      · cases hk
  | cons y more =>
      obtain ⟨rfl, hrest⟩ := List.cons.inj hsplit
      obtain ⟨hy, hmore⟩ := List.nodup_cons.mp hnodup
      obtain ⟨-, hseen⟩ := List.forall_mem_cons.mp hbefore
      refine ⟨more, after, hrest, hmore, fun z hz hmem => ?_, ?_⟩
      · rcases List.mem_cons.mp hmem with rfl | hz'
        · exact hy hz
        · exact hseen z hz hz'
      · rw [List.mem_cons] at hk ⊢
        rcases hk with hseen | rfl | hmore
        · exact .inl (.inr hseen)
        · exact .inl (.inl rfl)
        · exact .inr hmore

theorem firstRepeatAfter?_eq_some_iff [DecidableEq α] :
    firstRepeatAfter? seen xs = some k ↔ RepeatsAfter seen xs k := by
  induction xs generalizing seen with
  | nil => simp [firstRepeatAfter?, RepeatsAfter]
  | cons x rest ih =>
      rw [firstRepeatAfter?]
      by_cases hx : x ∈ seen
      · rw [if_pos hx, repeatsAfter_cons_of_mem hx, Option.some.injEq]
      · rw [if_neg hx, ih]
        exact ⟨.cons hx, .of_cons hx⟩

/-- The first repetition stands behind distinct elements and is one of them. -/
theorem firstRepeat?_eq_some_iff [DecidableEq α] :
    firstRepeat? xs = some k ↔
      ∃ before after, xs = before ++ k :: after ∧ before.Nodup ∧ k ∈ before := by
  simp [firstRepeat?, firstRepeatAfter?_eq_some_iff, RepeatsAfter]

end DemoScaffold
