import DemoScaffold.Proofs.Number.Decimal
import DemoScaffold.Star.Mesh

/-!
# Written coordinates

A finite coordinate is written as the decimal with three places that is nearest to it, and never as a zero
with a sign (`coordinateText_rounds`). What is written has only digits, signs, points and letters, also for
infinite coordinates and for those that are no numbers (`notMem_coordinateText`).
-/

namespace DemoScaffold

open Number

/-- The value of a pattern of single precision: a sign, eight bits for the exponent and the bits of a
fraction, to which a one is added unless the exponent is the least. None for infinities and for what is no
number. -/
def singleValue? (bits : UInt32) : Option ℚ :=
  let sign : ℚ := if bits.toNat / 2 ^ 31 = 0 then 1 else -1
  let exponent : ℕ := bits.toNat / 2 ^ 23 % 2 ^ 8
  let fraction : ℚ := (bits.toNat % 2 ^ 23 : ℕ) / 2 ^ 23
  if exponent = 255 then none
  else if exponent = 0 then some (sign * (fraction * 2 ^ (-126 : ℤ)))
  else some (sign * ((1 + fraction) * 2 ^ ((exponent : ℤ) - 127)))

variable {v : UInt32} {q : ℚ} {c : Char}

/-- A fraction of 23 bits as a whole number of units. -/
theorem two_zpow_add_fraction (e : ℤ) : (2 : ℚ) ^ (e + 23) = 8388608 * 2 ^ e := by
  rw [zpow_add₀ two_ne_zero, mul_comm]
  norm_num

theorem sign_of_bits (n : ℕ) : (if n / 2147483648 = 0 then 1 else -1 : ℚ) =
    if decide (2147483648 ≤ n) then -1 else 1 := by
  by_cases hless : n < 2147483648
  · simp [Nat.div_eq_of_lt hless, hless]
  · have hone : n / 2147483648 ≠ 0 := by omega
    simp [hone, not_lt.mp hless]

/-- Decoding gives the value of a pattern. -/
theorem decode_of_singleValue? (h : singleValue? v = some q) : ∃ negative m e,
    binary32.decode v.toNat = .finite negative m e ∧ q = (if negative then -1 else 1) * (m * 2 ^ e) := by
  have hbits : v.toNat < 2 ^ 32 := v.toNat_lt
  have hweight : binary32.signWeight = 2147483648 := by decide
  have hunit : Nat.pow 2 binary32.fractionBits = 8388608 := by decide
  have hexponent : v.toNat % 2147483648 / 8388608 = v.toNat / 8388608 % 256 := by omega
  have hfraction : v.toNat % 2147483648 % 8388608 = v.toNat % 8388608 := by omega
  have hinfinity : binary32.infinity = 2139095040 := rfl
  have hexponents : binary32.leastExponent = -149 := rfl
  simp only [singleValue?, Nat.reducePow] at h
  simp only [BinaryFormat.decode, hweight, hunit, hinfinity, hexponents, hexponent, hfraction]
  split at h
  · cases h
  · rw [if_neg (by omega), if_neg (by omega)]
    rw [sign_of_bits] at h
    split at h
    · rename_i hleast
      rw [hleast]
      refine ⟨_, _, _, rfl, ?_⟩
      have hscale := two_zpow_add_fraction (-149)
      rw [← Option.some.inj h, show (-126 : ℤ) = -149 + 23 from rfl, hscale]
      congr 1
      ring
    · obtain ⟨e, he⟩ := Nat.exists_eq_succ_of_ne_zero ‹_›
      rw [he] at h ⊢
      refine ⟨_, _, _, rfl, ?_⟩
      have hscale := two_zpow_add_fraction (-149 + e)
      have hpower : ((e.succ : ℤ) - 127) = -149 + e + 23 := by
        push_cast
        ring
      rw [← Option.some.inj h, hpower, hscale]
      push_cast
      congr 1
      ring

/-! ## Coordinates -/

theorem coordinateText_roundsTo (h : singleValue? v = some q) : RoundsTo 3 (coordinateText v) q := by
  obtain ⟨negative, m, e, hdecode, rfl⟩ := decode_of_singleValue? h
  have htext : coordinateText v = signedFixed 3 negative m e := by
    simp only [coordinateText, hdecode, signedFixed]
  rw [htext]
  exact roundsTo_signedFixed 3 negative m e

/-- A finite coordinate is written as the decimal with three places that is nearest to its value, a half going
to the one with an even last digit; only a decimal below zero has a sign, and a coordinate that is not greater
than another one is not written as a greater decimal. -/
theorem coordinateText_rounds (hv : singleValue? v = some q) : RoundsTo 3 (coordinateText v) q ∧
    ∀ w r, singleValue? w = some r → q ≤ r →
      (Decimal.ofText (coordinateText v)).value ≤ (Decimal.ofText (coordinateText w)).value := by
  have hrounds := coordinateText_roundsTo hv
  refine ⟨hrounds, ?_⟩
  intro w r hw hle
  exact hrounds.mono (coordinateText_roundsTo hw) hle

/-- Half a unit below zero, and as little below it as can be. -/
theorem coordinateText_below_zero : RoundsTo 3 (coordinateText 0xBD800000) (-1 / 16) ∧
    (Decimal.ofText (coordinateText 0xBD800000)).value ≤
      (Decimal.ofText (coordinateText 0x80000001)).value := by
  have hhalf : singleValue? 0xBD800000 = some (-1 / 16) := by
    have hbits : UInt32.toNat 0xBD800000 = 0xBD800000 := rfl
    norm_num [singleValue?, hbits]
  have hleast : singleValue? 0x80000001 = some (-2 ^ (-149 : ℤ)) := by
    have hbits : UInt32.toNat 0x80000001 = 0x80000001 := rfl
    norm_num [singleValue?, hbits]
  obtain ⟨hrounds, hmono⟩ := coordinateText_rounds hhalf
  exact ⟨hrounds, hmono _ _ hleast (by norm_num)⟩

/-- Coordinates are written with digits, points, minus signs and the letters of `inf` and `NaN` only. -/
theorem notMem_coordinateText (hdigit : c.isDigit = false) (hother : c ∉ "-.infNaN".toList) (v : UInt32) :
    c ∉ coordinateText v := by
  have hchars : c ≠ '-' ∧ c ≠ '.' ∧ c ≠ 'i' ∧ c ≠ 'n' ∧ c ≠ 'f' ∧ c ≠ 'N' ∧ c ≠ 'a' := by
    simp at hother
    tauto
  obtain ⟨hminus, hpoint, hletters⟩ := hchars
  rw [coordinateText]
  cases binary32.decode v.toNat with
  | finite negative m e =>
      have hdigits := notMem_fixedDigits hdigit hpoint 3 (scaledNearest 3 m e)
      simp only
      split
      · rw [List.mem_cons, not_or]
        exact ⟨hminus, hdigits⟩
      · exact hdigits
  | infinite negative => cases negative <;> simp [hminus, hletters]
  | nan => simp [hletters]

end DemoScaffold
