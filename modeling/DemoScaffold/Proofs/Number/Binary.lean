import DemoScaffold.Number.Binary
import DemoScaffold.Proofs.Number.Significand

/-!
# Nearest doubles

The pattern that is found for a quotient stands for the value with a significand of 53 bits that is nearest
to it, as long as the quotient is neither too small nor too large for such a significand
(`represents_nearest`).
-/

namespace DemoScaffold.Number.BinaryFormat

variable {f : BinaryFormat} {exponent fraction m num den bits : ℕ} {q r : ℚ}

/-- The pattern stands for the number, which has no sign. -/
def Represents (f : BinaryFormat) (bits : ℕ) (q : ℚ) : Prop :=
  ∃ m e, f.decode bits = .finite false m e ∧ q = m * 2 ^ e

/-! ## Patterns -/

theorem decode_of_fields (hfraction : fraction < 2 ^ f.fractionBits)
    (h : (exponent + 1) * 2 ^ f.fractionBits + fraction < f.infinity) :
    f.decode ((exponent + 1) * 2 ^ f.fractionBits + fraction) =
      .finite false (fraction + 2 ^ f.fractionBits) (f.leastExponent + exponent) := by
  have hunit : 0 < 2 ^ f.fractionBits := Nat.two_pow_pos _
  have hsign : (exponent + 1) * 2 ^ f.fractionBits + fraction < f.signWeight :=
    h.trans_le (Nat.le_add_right _ _)
  have hhead : ((exponent + 1) * 2 ^ f.fractionBits + fraction) / 2 ^ f.fractionBits = exponent + 1 := by
    rw [Nat.mul_comm, Nat.mul_add_div hunit, Nat.div_eq_of_lt hfraction, Nat.add_zero]
  have htail : ((exponent + 1) * 2 ^ f.fractionBits + fraction) % 2 ^ f.fractionBits = fraction := by
    rw [Nat.mul_comm, Nat.mul_add_mod, Nat.mod_eq_of_lt hfraction]
  simp only [decode, Nat.pow_eq, Nat.mod_eq_of_lt hsign, hhead, htail, if_neg (not_lt.mpr h.le),
    if_neg h.ne, decide_eq_false (not_le.mpr hsign)]

/-- A significand of full length, or the power of two behind the last one, is put behind an exponent by
adding it. -/
theorem represents_pattern (hlow : 2 ^ f.fractionBits ≤ m) (hhigh : m ≤ 2 * 2 ^ f.fractionBits)
    (h : exponent * 2 ^ f.fractionBits + m < f.infinity) :
    f.Represents (exponent * 2 ^ f.fractionBits + m) (m * 2 ^ (f.leastExponent + exponent)) := by
  have hunit : 0 < 2 ^ f.fractionBits := Nat.two_pow_pos _
  rcases hhigh.lt_or_eq with hlt | rfl
  · obtain ⟨fraction, rfl⟩ := Nat.exists_eq_add_of_le hlow
    have hpattern : exponent * 2 ^ f.fractionBits + (2 ^ f.fractionBits + fraction) =
        (exponent + 1) * 2 ^ f.fractionBits + fraction := by ring
    rw [hpattern] at h ⊢
    exact ⟨_, _, decode_of_fields (by omega) h, by push_cast; ring⟩
  · have hpattern : exponent * 2 ^ f.fractionBits + 2 * 2 ^ f.fractionBits =
        (exponent + 1 + 1) * 2 ^ f.fractionBits + 0 := by ring
    rw [hpattern] at h ⊢
    refine ⟨_, _, decode_of_fields hunit h, ?_⟩
    push_cast
    rw [← add_assoc, zpow_add_one₀ two_ne_zero]
    ring

/-! ## The unit of a quotient -/

theorem div_lt_zpow_iff (hden : 0 < den) (k : ℤ) :
    (num / den : ℚ) < 2 ^ k ↔ num * Nat.pow 2 (-k).toNat < den * Nat.pow 2 k.toNat := by
  have hden' : (0 : ℚ) < den := by exact_mod_cast hden
  rw [two_zpow_eq_div, div_lt_div_iff₀ hden' (by positivity), mul_comm ((2 : ℚ) ^ k.toNat)]
  exact_mod_cast Iff.rfl

theorem log2_bounds (hnum : 0 < num) (hden : 0 < den) :
    (2 : ℚ) ^ ((num.log2 : ℤ) - den.log2 - 1) < num / den ∧
      (num / den : ℚ) < 2 ^ ((num.log2 : ℤ) - den.log2 + 1) := by
  have hden' : (0 : ℚ) < den := by exact_mod_cast hden
  have hlow : (2 : ℚ) ^ num.log2 ≤ num := by exact_mod_cast Nat.log2_self_le hnum.ne'
  have hhigh : (num : ℚ) < 2 ^ (num.log2 + 1) := by exact_mod_cast Nat.lt_log2_self
  have hlow' : (2 : ℚ) ^ den.log2 ≤ den := by exact_mod_cast Nat.log2_self_le hden.ne'
  have hhigh' : (den : ℚ) < 2 ^ (den.log2 + 1) := by exact_mod_cast Nat.lt_log2_self
  have hnum' : (0 : ℚ) < num := by exact_mod_cast hnum
  have hpower (i j : ℕ) : (2 : ℚ) ^ ((i : ℤ) - j) = 2 ^ i / 2 ^ j := by
    rw [zpow_sub₀ two_ne_zero, zpow_natCast, zpow_natCast]
  constructor
  · calc (2 : ℚ) ^ ((num.log2 : ℤ) - den.log2 - 1) = 2 ^ num.log2 / 2 ^ (den.log2 + 1) := by
          rw [← hpower, Nat.cast_add_one, sub_sub]
      _ ≤ num / 2 ^ (den.log2 + 1) := div_le_div_of_nonneg_right hlow (by positivity)
      _ < num / den := div_lt_div_of_pos_left hnum' hden' hhigh'
  · calc (num / den : ℚ) ≤ num / 2 ^ den.log2 := div_le_div_of_nonneg_left hnum'.le (by positivity) hlow'
      _ < 2 ^ (num.log2 + 1) / 2 ^ den.log2 := div_lt_div_of_pos_right hhigh (by positivity)
      _ = 2 ^ ((num.log2 : ℤ) - den.log2 + 1) := by
          rw [← hpower, Nat.cast_add_one, sub_add_eq_add_sub]

/-- The pattern of a quotient is found at the place of its leading bit. -/
theorem nearest_eq (f : BinaryFormat) (hnum : 0 < num) (hden : 0 < den) : ∃ log : ℤ,
    (2 : ℚ) ^ log ≤ num / den ∧ (num / den : ℚ) < 2 ^ (log + 1) ∧
    ∀ e, e = max (log - f.fractionBits) f.leastExponent →
      f.nearest num den = min ((e - f.leastExponent).toNat * Nat.pow 2 f.fractionBits +
        roundHalfEven (num * Nat.pow 2 (-e).toNat) (den * Nat.pow 2 e.toNat)) f.infinity := by
  obtain ⟨hlow, hhigh⟩ := log2_bounds hnum hden
  by_cases hless : num * Nat.pow 2 (-((num.log2 : ℤ) - den.log2)).toNat <
      den * Nat.pow 2 ((num.log2 : ℤ) - den.log2).toNat
  · refine ⟨num.log2 - den.log2 - 1, hlow.le, ?_, ?_⟩
    · rw [sub_add_cancel]
      exact (div_lt_zpow_iff hden _).mpr hless
    · rintro e rfl
      simp only [nearest, if_neg hnum.ne', if_pos hless]
  · refine ⟨num.log2 - den.log2, ?_, hhigh, ?_⟩
    · exact not_lt.mp (mt (div_lt_zpow_iff hden _).mp hless)
    · rintro e rfl
      simp only [nearest, if_neg hnum.ne', if_neg hless]

theorem nearestEven_quotient (num : ℕ) (hden : 0 < den) (e : ℤ) :
    NearestEven ((num / den : ℚ) / 2 ^ e)
      (roundHalfEven (num * Nat.pow 2 (-e).toNat) (den * Nat.pow 2 e.toNat)) := by
  have hden' : (den : ℚ) ≠ 0 := by exact_mod_cast hden.ne'
  have hquotient : (num / den : ℚ) / 2 ^ e =
      (num * Nat.pow 2 (-e).toNat : ℕ) / (den * Nat.pow 2 e.toNat : ℕ) := by
    rw [two_zpow_eq_div]
    push_cast [Nat.pow_eq]
    field_simp
  rw [hquotient]
  exact nearestEven_roundHalfEven _ (Nat.mul_pos hden (Nat.two_pow_pos _))

/-- Zero, or neither too small nor too large for a significand with all its bits. -/
def InRange (q : ℚ) : Prop :=
  q = 0 ∨ ((2 : ℚ) ^ (-1022 : ℤ) ≤ q ∧ q < 2 ^ (1023 : ℤ))

theorem inRange_of_le {a b : ℤ} (ha : -1022 ≤ a) (hb : b < 1023) (hlow : (2 : ℚ) ^ a ≤ q)
    (hhigh : q ≤ 2 ^ b) : InRange q :=
  .inr ⟨((zpow_le_zpow_iff_right₀ one_lt_two).mpr ha).trans hlow,
    hhigh.trans_lt ((zpow_lt_zpow_iff_right₀ one_lt_two).mpr hb)⟩

/-- A significand of full length is put behind an exponent that there is, so that no infinity is found. -/
theorem represents_place {log : ℤ} (hleast : -1022 ≤ log) (hgreatest : log < 1023) (hm : 2 ^ 52 ≤ m)
    (hm' : m ≤ 2 * 2 ^ 52) :
    binary64.Represents (min ((log - 52 - binary64.leastExponent).toNat *
      Nat.pow 2 binary64.fractionBits + m) binary64.infinity) (m * 2 ^ (log - 52)) := by
  have hexponent : binary64.leastExponent = -1074 := rfl
  have hinfinity : binary64.infinity = 2047 * 2 ^ 52 := rfl
  obtain ⟨place, hplace⟩ : ∃ place : ℕ, log - 52 = binary64.leastExponent + place :=
    ⟨(log + 1022).toNat, by rw [hexponent]; omega⟩
  have hless : place * 2 ^ binary64.fractionBits + m < binary64.infinity := by
    rw [hexponent] at hplace
    rw [hinfinity, show binary64.fractionBits = 52 from rfl]
    omega
  rw [hplace, add_sub_cancel_left, Int.toNat_natCast, Nat.pow_eq, min_eq_left hless.le]
  exact represents_pattern hm hm' hless

/-- The pattern that is found for a quotient stands for the nearest value with 53 bits. -/
theorem represents_nearest (num : ℕ) (hden : 0 < den) (h : InRange (num / den)) :
    ∃ r, binary64.Represents (binary64.nearest num den) r ∧ NearestBits 53 (num / den) r := by
  rcases num.eq_zero_or_pos with rfl | hnum
  · have hzero : binary64.nearest 0 den = 0 := if_pos rfl
    rw [hzero, Nat.cast_zero, zero_div]
    exact ⟨0, ⟨0, -1074, rfl, by simp⟩, nearestBits_self ⟨0, 0, by decide, by simp⟩⟩
  have hquotient : (0 : ℚ) < num / den := by positivity
  obtain ⟨hlow, hhigh⟩ := h.resolve_left hquotient.ne'
  obtain ⟨log, hlog, hlog', hnearest⟩ := nearest_eq binary64 hnum hden
  have hleast : -1022 < log + 1 := (zpow_lt_zpow_iff_right₀ one_lt_two).mp (hlow.trans_lt hlog')
  have hgreatest : log < 1023 := (zpow_lt_zpow_iff_right₀ one_lt_two).mp (hlog.trans_lt hhigh)
  have hpattern := hnearest (log - 52) (max_eq_left (by
    change (-1074 : ℤ) ≤ log - 52
    omega)).symm
  have heven := nearestEven_quotient num hden (log - 52)
  generalize roundHalfEven (num * Nat.pow 2 (-(log - 52)).toNat) (den * Nat.pow 2 (log - 52).toNat) = m
    at hpattern heven
  have hlow' : (2 : ℚ) ^ (53 - 1) * 2 ^ (log - 52) ≤ num / den := by
    rwa [← zpow_natCast, ← zpow_add₀ two_ne_zero, show ((53 - 1 : ℕ) : ℤ) + (log - 52) = log by omega]
  have hhigh' : (num / den : ℚ) < 2 ^ 53 * 2 ^ (log - 52) := by
    rwa [← zpow_natCast, ← zpow_add₀ two_ne_zero, show ((53 : ℕ) : ℤ) + (log - 52) = log + 1 by omega]
  obtain ⟨hm, hm'⟩ := significand_bounds heven hlow' hhigh'
  refine ⟨m * 2 ^ (log - 52), ?_, nearestBits_of_scaled (by decide) heven hlow' hhigh'⟩
  rw [hpattern]
  exact represents_place (by omega) hgreatest hm hm'

/-- The pattern of a quotient of patterns stands for the value with 53 bits that is nearest to the quotient of
what they stand for. -/
theorem represents_quotient {a b : ℕ} (ha : binary64.Represents a q) (hb : binary64.Represents b r)
    (hr : 0 < r) (h : InRange (q / r)) :
    ∃ x, binary64.Represents (binary64.quotient a b) x ∧ NearestBits 53 (q / r) x := by
  obtain ⟨m, e, hdecode, rfl⟩ := ha
  obtain ⟨n, k, hdecode', rfl⟩ := hb
  have hn : 0 < n := by
    rw [Nat.pos_iff_ne_zero]
    rintro rfl
    simp at hr
  have hquotient : (m * 2 ^ e / (n * 2 ^ k) : ℚ) =
      (m * Nat.pow 2 (e - k).toNat : ℕ) / (n * Nat.pow 2 (-(e - k)).toNat : ℕ) := by
    have hn' : (n : ℚ) ≠ 0 := by exact_mod_cast hn.ne'
    have hscale : (2 : ℚ) ^ e = 2 ^ (e - k) * 2 ^ k := by rw [← zpow_add₀ two_ne_zero, sub_add_cancel]
    rw [hscale, two_zpow_eq_div (e - k)]
    push_cast [Nat.pow_eq]
    field_simp
  rw [hquotient] at h ⊢
  simp only [quotient, hdecode, hdecode', nearestScaled]
  exact represents_nearest _ (Nat.mul_pos hn (Nat.two_pow_pos _)) h

end DemoScaffold.Number.BinaryFormat
