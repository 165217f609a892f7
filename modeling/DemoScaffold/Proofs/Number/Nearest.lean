import DemoScaffold.Number.Fixed
import Mathlib.Algebra.Order.Field.Rat
import Mathlib.Algebra.Ring.Int.Parity
import Mathlib.Tactic.FieldSimp
import Mathlib.Tactic.Linarith
import Mathlib.Tactic.NormNum
import Mathlib.Tactic.Ring

/-!
# The nearest whole number

Every rational has at most one nearest whole number, a half going to the even neighbour, and it does not
decrease when the rational grows (`NearestEven.unique`, `NearestEven.mono`). Rounding a quotient finds it
(`nearestEven_roundHalfEven`).
-/

namespace DemoScaffold.Number

/-- `k` is at most half a unit away from `q`, so no whole number is nearer, and it is even if another one is
as near. -/
structure NearestEven (q : ℚ) (k : ℤ) : Prop where
  near : |q - k| ≤ 1 / 2
  even : |q - k| = 1 / 2 → Even k

variable {q r : ℚ} {k l : ℤ} {num den : ℕ}

namespace NearestEven

theorem mono (hk : NearestEven q k) (hl : NearestEven r l) (h : q ≤ r) : k ≤ l := by
  by_contra hgt
  have hstep : (l : ℚ) + 1 ≤ k := by exact_mod_cast not_le.mp hgt
  obtain ⟨hlow, -⟩ := abs_le.mp hk.near
  obtain ⟨-, hhigh⟩ := abs_le.mp hl.near
  -- Nothing is left between the two, so that both are half a unit off.
  have hq : q - k = -(1 / 2) := by linarith
  have hr : r - l = 1 / 2 := by linarith
  have hsucc : k = l + 1 := by
    have heq : (k : ℚ) = l + 1 := by linarith
    exact_mod_cast heq
  have hek : Even k := hk.even (by rw [hq]; norm_num)
  have hel : Even l := hl.even (by rw [hr]; norm_num)
  rw [hsucc] at hek
  exact Int.even_add_one.mp hek hel

theorem unique (hk : NearestEven q k) (hl : NearestEven q l) : k = l :=
  le_antisymm (hk.mono hl le_rfl) (hl.mono hk le_rfl)

theorem neg (hk : NearestEven q k) : NearestEven (-q) (-k) := by
  have hdist : |-q - ((-k : ℤ) : ℚ)| = |q - k| := by
    rw [← abs_neg]
    congr 1
    push_cast
    ring
  constructor
  · rw [hdist]
    exact hk.near
  · intro htie
    rw [hdist] at htie
    exact even_neg.mpr (hk.even htie)

theorem intCast (k : ℤ) : NearestEven k k := by
  constructor <;> rw [sub_self, abs_zero]
  · norm_num
  · norm_num

/-- Two whole numbers are not both less than half a unit away. -/
theorem one_le_dist_add_dist {j k : ℤ} (h : j ≠ k) (q : ℚ) : 1 ≤ |q - j| + |q - k| := by
  have hapart : (1 : ℚ) ≤ |(j : ℚ) - k| := by
    have hint : 1 ≤ |j - k| := Int.one_le_abs (sub_ne_zero.mpr h)
    exact_mod_cast hint
  calc (1 : ℚ) ≤ |(j : ℚ) - k| := hapart
    _ ≤ |(j : ℚ) - q| + |q - k| := abs_sub_le _ _ _
    _ = |q - j| + |q - k| := by rw [abs_sub_comm (j : ℚ)]

theorem le_dist (hk : NearestEven q k) (j : ℤ) : |q - k| ≤ |q - j| := by
  by_cases h : j = k
  · rw [h]
  · have hdist := one_le_dist_add_dist h q
    have hnear := hk.near
    linarith

theorem even_of_tie {j : ℤ} (hk : NearestEven q k) (h : j ≠ k) (htie : |q - j| = |q - k|) : Even k := by
  have hdist := one_le_dist_add_dist h q
  have hnear := hk.near
  exact hk.even (by linarith)

end NearestEven

/-- Half a unit off, the result is even. -/
theorem even_roundHalfEven (h : 0 < den)
    (htie : 2 * num = 2 * (roundHalfEven num den * den) + den ∨
      2 * (roundHalfEven num den * den) = 2 * num + den) : Even (roundHalfEven num den) := by
  have hdiv := Nat.div_add_mod num den
  have hmod := Nat.mod_lt num h
  rw [Nat.mul_comm] at hdiv
  simp only [roundHalfEven] at htie ⊢
  split at htie
  · omega
  · split at htie
    · rw [Nat.add_mul] at htie
      omega
    · rename_i hlow hhigh
      rw [if_neg hlow, if_neg hhigh, Nat.even_iff]
      omega

theorem nearestEven_roundHalfEven (num : ℕ) (h : 0 < den) :
    NearestEven ((num : ℚ) / den) (roundHalfEven num den) := by
  have hden : (0 : ℚ) < den := by exact_mod_cast h
  have hup : 2 * ((roundHalfEven num den : ℚ) * den) ≤ 2 * num + den := by
    exact_mod_cast two_mul_roundHalfEven_le num den
  have hlow : 2 * (num : ℚ) ≤ 2 * ((roundHalfEven num den : ℚ) * den) + den := by
    exact_mod_cast two_mul_le_roundHalfEven num h
  constructor
  · rw [Int.cast_natCast, abs_le, neg_le_sub_iff_le_add, sub_le_iff_le_add, div_add' _ _ _ hden.ne',
      le_div_iff₀ hden, div_le_iff₀ hden]
    constructor <;> linarith
  · intro htie
    rw [Int.cast_natCast, abs_eq (by norm_num), sub_eq_iff_eq_add, sub_eq_iff_eq_add,
      div_eq_iff hden.ne', div_eq_iff hden.ne'] at htie
    rw [Int.even_coe_nat]
    apply even_roundHalfEven h
    rcases htie with htie | htie
    · left
      have heq : 2 * (num : ℚ) = 2 * (roundHalfEven num den * den) + den := by rw [htie]; ring
      exact_mod_cast heq
    · right
      have heq : 2 * ((roundHalfEven num den : ℚ) * den) = 2 * num + den := by rw [htie]; ring
      exact_mod_cast heq

theorem two_zpow_eq_div (e : ℤ) : (2 : ℚ) ^ e = 2 ^ e.toNat / 2 ^ (-e).toNat := by
  obtain ⟨n, rfl | rfl⟩ := e.eq_nat_or_neg
  · simp
  · simp

/-- A binary value in units of its last place, rounded. -/
theorem nearestEven_scaledNearest (places m : ℕ) (e : ℤ) :
    NearestEven (m * 2 ^ e * 10 ^ places) (scaledNearest places m e) := by
  have hden : 0 < Nat.pow 2 (-e).toNat := Nat.two_pow_pos _
  have hquotient : (m * 2 ^ e * 10 ^ places : ℚ) =
      ((m * Nat.pow 10 places * Nat.pow 2 e.toNat : ℕ) : ℚ) / (Nat.pow 2 (-e).toNat : ℕ) := by
    rw [two_zpow_eq_div]
    push_cast [Nat.pow_eq]
    ring
  rw [hquotient]
  exact nearestEven_roundHalfEven _ hden

end DemoScaffold.Number
