import DemoScaffold.Proofs.Path.Components
import DemoScaffold.Proofs.Text.Order

/-!
# The order of paths

Components with the same key are the same, so the order of paths tells two paths apart exactly if their
components do, and paths that all differ in their components can be sorted in one way only.
-/

namespace DemoScaffold.Path

variable {p q : Path}

theorem Component.key_injective : Function.Injective Component.key := by
  intro c d h
  cases c <;> cases d <;> simp only [Component.key, List.cons.injEq] at h
  case normal.normal name other => rw [Text.byteKey_injective h.2]
  all_goals first | rfl | exact absurd h.1 (by decide)

theorem key_eq_iff : p.key = q.key ↔ p.components = q.components :=
  (List.map_injective_iff.mpr Component.key_injective).eq_iff

theorem le_iff : le p q = true ↔ p.key ≤ q.key := by
  rw [le, Bool.not_eq_true', decide_eq_false_iff_not, not_lt]

/-! ## Sorting -/

theorem pairwise_mergeSort_le (paths : List Path) :
    (paths.mergeSort le).Pairwise fun p q => p.key ≤ q.key := by
  have htrans (p q r : Path) (hpq : le p q = true) (hqr : le q r = true) : le p r = true :=
    le_iff.mpr ((le_iff.mp hpq).trans (le_iff.mp hqr))
  have htotal (p q : Path) : (le p q || le q p) = true := by
    rw [Bool.or_eq_true, le_iff, le_iff]
    exact le_total _ _
  exact (List.pairwise_mergeSort htrans htotal paths).imp fun h => le_iff.mp h

/-- Paths that all differ in their components are in strict order when they have been sorted. -/
theorem pairwise_mergeSort_lt {paths : List Path} (h : (paths.map key).Nodup) :
    (paths.mergeSort le).Pairwise fun p q => p.key < q.key := by
  have hnodup : ((paths.mergeSort le).map key).Nodup :=
    ((List.mergeSort_perm paths le).map key).nodup_iff.mpr h
  exact (pairwise_mergeSort_le paths).imp₂ (fun _ _ hle hne => lt_of_le_of_ne hle hne)
    (List.pairwise_map.mp hnodup)

/-- Such paths have one order only. -/
theorem mergeSort_eq_of_perm {paths others : List Path} (h : (paths.map key).Nodup)
    (hperm : others.Perm paths) : others.mergeSort le = paths.mergeSort le := by
  have hothers : (others.map key).Nodup := (hperm.map key).nodup_iff.mpr h
  have hsorted : (others.mergeSort le).Perm (paths.mergeSort le) :=
    (List.mergeSort_perm others le).trans (hperm.trans (List.mergeSort_perm paths le).symm)
  exact hsorted.eq_of_pairwise (fun _ _ _ _ hlt hgt => absurd hlt (lt_asymm hgt))
    (pairwise_mergeSort_lt hothers) (pairwise_mergeSort_lt h)

end DemoScaffold.Path
