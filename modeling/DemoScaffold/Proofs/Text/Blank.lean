import DemoScaffold.Text.Blank
import Mathlib.Data.List.DropRight

/-!
# Trimmed texts

White space at the end of a text makes no difference once the text is trimmed, and trimming adds nothing.
-/

namespace DemoScaffold.Text

variable {c : Char}

theorem trimEnd_concat (hc : isWhite c = true) (s : List Char) : trimEnd (s ++ [c]) = trimEnd s :=
  List.rdropWhile_concat_pos isWhite s c hc

theorem trim_concat (hc : isWhite c = true) (s : List Char) : trim (s ++ [c]) = trim s := by
  rw [trim, trim, trimStart, List.dropWhile_append]
  split
  · rename_i hempty
    rw [List.dropWhile_cons_of_pos hc, List.dropWhile_nil, trimStart, List.isEmpty_iff.mp hempty]
  · exact trimEnd_concat hc _

theorem trimStart_of_prefix {s u : List Char} (h : u <+: trimStart s) : trimStart u = u := by
  apply List.dropWhile_eq_self_iff.mpr
  intro hu
  have hs : 0 < (trimStart s).length := Nat.lt_of_lt_of_le hu h.length_le
  rw [h.getElem hu]
  exact List.dropWhile_get_zero_not isWhite s hs

theorem trim_trim (s : List Char) : trim (trim s) = trim s := by
  have hstart : trimStart (trim s) = trim s := trimStart_of_prefix (List.rdropWhile_prefix isWhite _)
  rw [trim, hstart]
  exact List.rdropWhile_idempotent isWhite _

/-- Nothing is left exactly of a text that is all white space. -/
theorem trim_eq_nil_iff {s : List Char} : trim s = [] ↔ ∀ c ∈ s, isWhite c = true := by
  have hstart : trimStart s = [] ↔ ∀ c ∈ s, isWhite c = true := List.dropWhile_eq_nil_iff
  have hend : trim s = [] ↔ ∀ c ∈ trimStart s, isWhite c = true := List.rdropWhile_eq_nil_iff
  rw [hend]
  constructor
  · intro h
    rw [← hstart, ← trimStart_of_prefix List.prefix_rfl]
    exact List.dropWhile_eq_nil_iff.mpr h
  · exact fun h c hc => h c ((List.dropWhile_suffix isWhite).subset hc)

theorem trim_subset (s : List Char) : trim s ⊆ s := by
  have hend : trimEnd (trimStart s) <+: trimStart s := List.rdropWhile_prefix isWhite _
  exact List.Subset.trans hend.subset (List.dropWhile_suffix isWhite).subset

end DemoScaffold.Text
