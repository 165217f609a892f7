import DemoScaffold.Proofs.Number.Nearest
import Mathlib.Tactic.Positivity

/-!
# The nearest value with a short significand

Of the values whose significand has a given number of bits one is nearest to a rational, a half going to the
one whose significand is even. It is the only one, it does not decrease when the rational grows, and rounding
to whole units of the last place finds it (`NearestBits.mono`, `NearestBits.unique`, `nearestBits_of_scaled`).
-/

namespace DemoScaffold.Number

/-- The values whose significand has so many bits: a whole number of units, the unit being a power of two. -/
def HasBits (bits : ℕ) (x : ℚ) : Prop :=
  ∃ (m : ℕ) (e : ℤ), m < 2 ^ bits ∧ x = m * 2 ^ e

/-- A value with so many bits is even if its significand is, when it is written with all its bits. -/
def EvenBits (bits : ℕ) (x : ℚ) : Prop :=
  ∃ (m : ℕ) (e : ℤ), 2 ^ (bits - 1) ≤ m ∧ m < 2 ^ bits ∧ Even m ∧ x = m * 2 ^ e

/-- No value with so many bits is nearer to `q` than `r`, and `r` is even if another one is as near. -/
structure NearestBits (bits : ℕ) (q r : ℚ) : Prop where
  hasBits : HasBits bits r
  near : ∀ y, HasBits bits y → |q - r| ≤ |q - y|
  even : ∀ y, HasBits bits y → y ≠ r → |q - y| = |q - r| → EvenBits bits r

variable {bits m : ℕ} {q q' r r' x y : ℚ} {e : ℤ} {k j : ℤ}

/-! ## Values with so many bits -/

/-- A significand may also be the power of two that has one bit more. -/
theorem hasBits_of_le (hbits : 0 < bits) (h : m ≤ 2 ^ bits) (e : ℤ) : HasBits bits (m * 2 ^ e) := by
  rcases h.lt_or_eq with hlt | rfl
  · exact ⟨m, e, hlt, rfl⟩
  · refine ⟨1, e + bits, Nat.one_lt_two_pow hbits.ne', ?_⟩
    rw [zpow_add₀ two_ne_zero, zpow_natCast]
    push_cast
    ring

theorem HasBits.mul_zpow (h : HasBits bits x) (k : ℤ) : HasBits bits (x * 2 ^ k) := by
  obtain ⟨m, e, hm, rfl⟩ := h
  exact ⟨m, e + k, hm, by rw [zpow_add₀ two_ne_zero, mul_assoc]⟩

theorem two_pow_le (bits : ℕ) : 2 ^ bits ≤ 2 * 2 ^ (bits - 1) := by
  cases bits with
  | zero => decide
  | succ n => rw [Nat.pow_succ', Nat.add_sub_cancel]

/-- What is not less than the least significand of full length has a unit that is not less. -/
theorem exponent_le {f : ℤ} (hm : m < 2 ^ bits) (h : (2 : ℚ) ^ (bits - 1) * 2 ^ e ≤ m * 2 ^ f) :
    e ≤ f := by
  have hunit : (0 : ℚ) < 2 ^ f := zpow_pos two_pos f
  have hm' : (m : ℚ) < 2 * 2 ^ (bits - 1) := by exact_mod_cast hm.trans_le (two_pow_le bits)
  have hscaled : (2 : ℚ) ^ (bits - 1) * 2 ^ e < 2 ^ (bits - 1) * 2 ^ (f + 1) := by
    calc (2 : ℚ) ^ (bits - 1) * 2 ^ e ≤ m * 2 ^ f := h
      _ < 2 * 2 ^ (bits - 1) * 2 ^ f := mul_lt_mul_of_pos_right hm' hunit
      _ = 2 ^ (bits - 1) * 2 ^ (f + 1) := by rw [zpow_add_one₀ two_ne_zero]; ring
  have hexponent : e < f + 1 :=
    (zpow_lt_zpow_iff_right₀ one_lt_two).mp (lt_of_mul_lt_mul_left hscaled (by positivity))
  omega

/-- From the least significand of full length on, values are whole multiples of the unit. -/
theorem HasBits.exists_multiple (h : HasBits bits y) (hle : (2 : ℚ) ^ (bits - 1) * 2 ^ e ≤ y) :
    ∃ j : ℤ, y = j * 2 ^ e := by
  obtain ⟨m, f, hm, rfl⟩ := h
  obtain ⟨d, rfl⟩ := Int.exists_add_of_le (exponent_le hm hle)
  refine ⟨m * 2 ^ d, ?_⟩
  rw [zpow_add₀ two_ne_zero, zpow_natCast]
  push_cast
  ring

/-! ## What the nearest value is determined by -/

theorem nearestBits_self (h : HasBits bits x) : NearestBits bits x x := by
  refine ⟨h, fun y _ => ?_, fun y _ hne htie => ?_⟩
  · rw [sub_self, abs_zero]
    exact abs_nonneg _
  · rw [sub_self, abs_zero, abs_eq_zero, sub_eq_zero] at htie
    exact absurd htie.symm hne

/-- Behind an even value there is a value that is not even before the next even one. -/
theorem EvenBits.exists_between (hr : EvenBits bits r) (hr' : EvenBits bits r') (hlt : r < r') :
    ∃ y, HasBits bits y ∧ r < y ∧ y < r' := by
  obtain ⟨n, e, hlow, hn, heven, rfl⟩ := hr
  obtain ⟨m, f, -, hm, heven', rfl⟩ := hr'
  have hunit : (0 : ℚ) < 2 ^ e := zpow_pos two_pos e
  have hlow' : (2 : ℚ) ^ (bits - 1) ≤ n := by exact_mod_cast hlow
  have hfull : (2 : ℚ) ^ (bits - 1) * 2 ^ e ≤ m * 2 ^ f :=
    (mul_le_mul_of_nonneg_right hlow' hunit.le).trans hlt.le
  -- In units of the lesser value both are even, so that there is a whole number of units between them.
  obtain ⟨d, rfl⟩ := Int.exists_add_of_le (exponent_le hm hfull)
  have hunits : (m : ℚ) * 2 ^ (e + d) = (m * 2 ^ d : ℕ) * 2 ^ e := by
    rw [zpow_add₀ two_ne_zero, zpow_natCast]
    push_cast
    ring
  rw [hunits] at hlt ⊢
  have hless : n < m * 2 ^ d := by exact_mod_cast lt_of_mul_lt_mul_right hlt hunit.le
  have hnext : n + 1 < m * 2 ^ d := by
    obtain ⟨a, rfl⟩ := heven
    obtain ⟨b, hb⟩ := heven'.mul_right (2 ^ d)
    omega
  have hbits : n + 1 ≤ 2 ^ bits := hn
  have hpositive : 0 < bits := by
    by_contra hzero
    obtain rfl : bits = 0 := by omega
    simp at hlow hn
    omega
  refine ⟨(n + 1 : ℕ) * 2 ^ e, hasBits_of_le hpositive hbits e, ?_, ?_⟩
  · exact mul_lt_mul_of_pos_right (by exact_mod_cast Nat.lt_succ_self n) hunit
  · exact mul_lt_mul_of_pos_right (by exact_mod_cast hnext) hunit

namespace NearestBits

theorem mono (hr : NearestBits bits q r) (hr' : NearestBits bits q' r') (h : q ≤ q') : r ≤ r' := by
  by_contra hgt
  have hlt : r' < r := not_le.mp hgt
  have hnear := hr.near r' hr'.hasBits
  have hnear' := hr'.near r hr.hasBits
  -- The two rationals lie in the middle between the two values, so that both values are even.
  have hmiddle : r + r' ≤ 2 * q := by
    rcases abs_cases (q - r) with ⟨h1, h1'⟩ | ⟨h1, h1'⟩ <;>
      rcases abs_cases (q - r') with ⟨h2, h2'⟩ | ⟨h2, h2'⟩ <;> linarith
  have hmiddle' : 2 * q' ≤ r + r' := by
    rcases abs_cases (q' - r) with ⟨h1, h1'⟩ | ⟨h1, h1'⟩ <;>
      rcases abs_cases (q' - r') with ⟨h2, h2'⟩ | ⟨h2, h2'⟩ <;> linarith
  have hq : q = (r + r') / 2 := by linarith
  obtain rfl : q' = q := by linarith
  have htie : |q' - r'| = |q' - r| := le_antisymm hnear' hnear
  have heven := hr.even r' hr'.hasBits hlt.ne htie
  have heven' := hr'.even r hr.hasBits hlt.ne' htie.symm
  obtain ⟨y, hy, hlow, hhigh⟩ := heven'.exists_between heven hlt
  have hcloser : |q' - y| < |q' - r| := by
    rw [hq, abs_lt, abs_of_neg (by linarith)]
    constructor <;> linarith
  exact absurd (hr.near y hy) (not_le.mpr hcloser)

theorem unique (hr : NearestBits bits q r) (hr' : NearestBits bits q r') : r = r' :=
  le_antisymm (hr.mono hr' le_rfl) (hr'.mono hr le_rfl)

theorem eq_of_hasBits (hr : NearestBits bits q r) (h : HasBits bits q) : r = q :=
  hr.unique (nearestBits_self h)

end NearestBits

/-! ## Finding it -/

theorem evenBits_of_even (hbits : 2 ≤ bits) (hlow : 2 ^ (bits - 1) ≤ m) (hm : m ≤ 2 ^ bits) (heven : Even m)
    (e : ℤ) : EvenBits bits (m * 2 ^ e) := by
  rcases hm.lt_or_eq with hlt | rfl
  · exact ⟨m, e, hlow, hlt, heven, rfl⟩
  · obtain ⟨n, rfl⟩ : ∃ n, bits = n + 2 := ⟨bits - 2, by omega⟩
    refine ⟨2 ^ (n + 1), e + 1, le_rfl, Nat.pow_lt_pow_right (by decide) (by omega),
      Nat.even_pow.mpr ⟨even_two, by omega⟩, ?_⟩
    rw [zpow_add_one₀ two_ne_zero]
    push_cast
    ring

theorem significand_bounds (hm : NearestEven (q / 2 ^ e) m)
    (hlow : (2 : ℚ) ^ (bits - 1) * 2 ^ e ≤ q) (hhigh : q < 2 ^ bits * 2 ^ e) :
    2 ^ (bits - 1) ≤ m ∧ m ≤ 2 ^ bits := by
  have hunit : (0 : ℚ) < 2 ^ e := zpow_pos two_pos e
  have hleast := (NearestEven.intCast (2 ^ (bits - 1))).mono hm (by
    push_cast
    exact (le_div_iff₀ hunit).mpr hlow)
  have hgreatest := hm.mono (NearestEven.intCast (2 ^ bits)) (by
    push_cast
    exact (div_le_iff₀ hunit).mpr hhigh.le)
  exact ⟨by exact_mod_cast hleast, by exact_mod_cast hgreatest⟩

/-- If the unit is chosen so that the rational has a whole part of full length, the nearest whole number of
units is the nearest value. -/
theorem nearestBits_of_scaled (hbits : 2 ≤ bits) (hm : NearestEven (q / 2 ^ e) m)
    (hlow : (2 : ℚ) ^ (bits - 1) * 2 ^ e ≤ q) (hhigh : q < 2 ^ bits * 2 ^ e) :
    NearestBits bits q (m * 2 ^ e) := by
  have hunit : (0 : ℚ) < 2 ^ e := zpow_pos two_pos e
  obtain ⟨hleast, hgreatest⟩ := significand_bounds hm hlow hhigh
  have hdist (j : ℤ) : |q - j * 2 ^ e| = |q / 2 ^ e - j| * 2 ^ e := by
    rw [← abs_of_pos hunit, ← abs_mul, abs_of_pos hunit, sub_mul, div_mul_cancel₀ _ hunit.ne']
  have hmultiple (j : ℤ) : |q - m * 2 ^ e| ≤ |q - j * 2 ^ e| := by
    have hle := mul_le_mul_of_nonneg_right (hm.le_dist j) hunit.le
    rwa [← hdist, ← hdist, Int.cast_natCast] at hle
  have hlead := hmultiple (2 ^ (bits - 1))
  push_cast at hlead
  rw [abs_of_nonneg (sub_nonneg.mpr hlow)] at hlead
  refine ⟨hasBits_of_le (by omega) hgreatest e, fun y hy => ?_, fun y hy hne htie => ?_⟩
  · rcases le_or_gt ((2 : ℚ) ^ (bits - 1) * 2 ^ e) y with hy' | hy'
    · obtain ⟨j, rfl⟩ := hy.exists_multiple hy'
      exact hmultiple j
    · rw [abs_of_nonneg (sub_nonneg.mpr (hy'.le.trans hlow))]
      linarith
  · rcases le_or_gt ((2 : ℚ) ^ (bits - 1) * 2 ^ e) y with hy' | hy'
    · obtain ⟨j, rfl⟩ := hy.exists_multiple hy'
      have hj : j ≠ (m : ℤ) := by
        rintro rfl
        exact hne (by rw [Int.cast_natCast])
      have htie' : |q / 2 ^ e - j| = |q / 2 ^ e - (m : ℤ)| := by
        have hscaled : |q - j * 2 ^ e| = |q - (m : ℤ) * 2 ^ e| := by rw [htie, Int.cast_natCast]
        rw [hdist, hdist] at hscaled
        exact mul_right_cancel₀ hunit.ne' hscaled
      have heven : Even m := by exact_mod_cast hm.even_of_tie hj htie'
      exact evenBits_of_even hbits hleast hgreatest heven e
    · rw [abs_of_nonneg (sub_nonneg.mpr (hy'.le.trans hlow))] at htie
      linarith

end DemoScaffold.Number
