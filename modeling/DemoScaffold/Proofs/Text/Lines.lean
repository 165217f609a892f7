import DemoScaffold.Text.Lines

/-!
# Written lines

Lines that are written one after the other are read back as those lines (`lines_unlines`), unless one of
them has a line feed in it or ends in a carriage return.
-/

namespace DemoScaffold.Text

variable {l : List Char} {ls : List (List Char)}

/-- A text that can be a line. -/
def IsLine (l : List Char) : Prop :=
  '\n' ∉ l ∧ l.getLast? ≠ some '\r'

instance : Decidable (IsLine l) := inferInstanceAs (Decidable (_ ∧ _))

theorem IsLine.append {u : List Char} (h : IsLine l) (hu : IsLine u) : IsLine (l ++ u) := by
  refine ⟨fun hmem => (List.mem_append.mp hmem).elim h.1 hu.1, ?_⟩
  have hend := hu.2
  rw [List.getLast?_append]
  cases hlast : u.getLast? with
  | none => exact h.2
  | some c =>
      rw [hlast] at hend
      exact hend

/-- What ends like a line can be one even if it begins with a text that cannot. -/
theorem IsLine.append_of_ne_nil {u : List Char} (hu : IsLine u) (hne : u ≠ []) (h : '\n' ∉ l) :
    IsLine (l ++ u) := by
  refine ⟨fun hmem => (List.mem_append.mp hmem).elim h hu.1, ?_⟩
  have hend := hu.2
  rw [List.getLast?_append]
  cases hlast : u.getLast? with
  | none => exact absurd (List.getLast?_eq_none_iff.mp hlast) hne
  | some c =>
      rw [hlast] at hend
      exact hend

/-- A character that ends no line belongs to the line that follows it. -/
theorem lines_cons {c : Char} {s line : List Char} (hc : c ≠ '\n')
    (hend : ¬ (c = '\r' ∧ s.head? = some '\n')) (hs : lines s = line :: ls) :
    lines (c :: s) = (c :: line) :: ls := by
  rw [lines, if_neg hc, if_neg hend, hs]

theorem eq_nil_of_head?_append {c : Char} {rest : List Char} (hl : '\n' ∉ l)
    (h : (l ++ c :: rest).head? = some '\n') : l = [] ∧ c = '\n' := by
  cases l with
  | nil => exact ⟨rfl, Option.some.inj h⟩
  | cons d more => exact absurd (Option.some.inj h ▸ List.mem_cons_self) hl

theorem lines_append (h : IsLine l) (rest : List Char) :
    lines (l ++ '\n' :: rest) = l :: lines rest := by
  induction l with
  | nil => rw [List.nil_append, lines, if_pos rfl]
  | cons c more ih =>
      obtain ⟨hfeed, hreturn⟩ := h
      obtain ⟨hc, hmore⟩ := not_or.mp (mt List.mem_cons.mpr hfeed)
      have hend : ¬ (c = '\r' ∧ (more ++ '\n' :: rest).head? = some '\n') := by
        rintro ⟨rfl, hhead⟩
        obtain ⟨rfl, -⟩ := eq_nil_of_head?_append hmore hhead
        exact hreturn rfl
      have hlast : more.getLast? ≠ some '\r' := by
        cases more with
        | nil => simp
        | cons d more => simpa using hreturn
      exact lines_cons (Ne.symm hc) hend (ih ⟨hmore, hlast⟩)

theorem lines_append_return (h : '\n' ∉ l) (rest : List Char) :
    lines (l ++ '\r' :: '\n' :: rest) = l :: lines rest := by
  induction l with
  | nil => simp [lines]
  | cons c more ih =>
      obtain ⟨hc, hmore⟩ := not_or.mp (mt List.mem_cons.mpr h)
      have hend : ¬ (c = '\r' ∧ (more ++ '\r' :: '\n' :: rest).head? = some '\n') := by
        rintro ⟨-, hhead⟩
        exact absurd (eq_nil_of_head?_append hmore hhead).2 (by decide)
      exact lines_cons (Ne.symm hc) hend (ih hmore)

theorem lines_of_notMem (h : '\n' ∉ l) (hne : l ≠ []) : lines l = [l] := by
  induction l with
  | nil => exact absurd rfl hne
  | cons c more ih =>
      obtain ⟨hc, hmore⟩ := not_or.mp (mt List.mem_cons.mpr h)
      have hend : ¬ (c = '\r' ∧ more.head? = some '\n') := by
        rintro ⟨-, hhead⟩
        exact hmore (List.mem_of_head? hhead)
      by_cases hempty : more = []
      · rw [hempty, lines, if_neg (Ne.symm hc), if_neg (by simp)]
        rfl
      · exact lines_cons (Ne.symm hc) hend (ih hmore hempty)

theorem feed_notMem_of_mem_lines {s : List Char} (h : l ∈ lines s) : '\n' ∉ l := by
  induction s generalizing l with
  | nil => cases h
  | cons c rest ih =>
      rw [lines] at h
      split at h
      · rcases List.mem_cons.mp h with rfl | h
        · exact List.not_mem_nil
        · exact ih h
      · rename_i hc
        split at h
        · exact ih h
        · split at h
          · rw [List.mem_singleton.mp h]
            simpa using Ne.symm hc
          · rename_i line more hlines
            rw [hlines] at ih
            rcases List.mem_cons.mp h with rfl | h
            · simpa [Ne.symm hc] using ih List.mem_cons_self
            · exact ih (List.mem_cons_of_mem _ h)

theorem lines_ne_nil {s : List Char} (h : s ≠ []) : lines s ≠ [] := by
  induction s with
  | nil => exact absurd rfl h
  | cons c rest ih =>
      rw [lines]
      split
      · exact List.cons_ne_nil _ _
      · split
        · rename_i hreturn
          refine ih ?_
          rintro rfl
          cases hreturn.2
        · split
          · exact List.cons_ne_nil _ _
          · exact List.cons_ne_nil _ _

/-- What ends in a line feed has its own lines, whatever follows. -/
theorem lines_append_feed (s rest : List Char) :
    lines (s ++ '\n' :: rest) = lines (s ++ ['\n']) ++ lines rest := by
  induction s with
  | nil => rw [List.nil_append, List.nil_append, lines, lines, if_pos rfl, if_pos rfl]; rfl
  | cons c more ih =>
      have hhead : (more ++ '\n' :: rest).head? = (more ++ ['\n']).head? := by cases more <;> rfl
      rw [List.cons_append, List.cons_append, lines, lines, hhead, ih]
      split
      · rfl
      · split
        · rfl
        · obtain ⟨line, others, hlines⟩ :=
            List.exists_cons_of_ne_nil (lines_ne_nil (List.append_ne_nil_of_right_ne_nil more
              (List.cons_ne_nil '\n' [])))
          rw [hlines]
          rfl

theorem lines_unlines (h : ∀ l ∈ ls, IsLine l) : lines (unlines ls) = ls := by
  induction ls with
  | nil => rfl
  | cons l rest ih =>
      obtain ⟨hl, hrest⟩ := List.forall_mem_cons.mp h
      rw [unlines, List.flatMap_cons, List.append_assoc, List.singleton_append, lines_append hl,
        ← unlines, ih hrest]

/-- Written lines are the pieces between line feeds, also where a line ends in a carriage return, and
nothing follows the last feed. -/
theorem splitOn_unlines (h : ∀ l ∈ ls, '\n' ∉ l) : (unlines ls).splitOn '\n' = ls ++ [[]] := by
  induction ls with
  | nil => rfl
  | cons l rest ih =>
      obtain ⟨hl, hrest⟩ := List.forall_mem_cons.mp h
      rw [unlines, List.flatMap_cons, List.append_assoc, List.singleton_append,
        List.splitOn_append_cons_self_of_not_mem hl, ← unlines, ih hrest]
      rfl

theorem toList_join_feed (ls : List String) :
    (String.join (ls.map (· ++ "\n"))).toList = unlines (ls.map String.toList) := by
  simp [unlines, String.toList_join, List.flatMap_map]

end DemoScaffold.Text
