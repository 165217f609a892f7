import DemoScaffold.Binary.Info
import DemoScaffold.Proofs.Number.Binary
import DemoScaffold.Proofs.Number.Decimal

/-!
# Shown sizes

A size is shown with its mebibytes and its bytes. The bytes are exact; the mebibytes are those of the nearest
value with 53 bits, with two places, so that they do not decrease when the size grows (`shownSize_rounds`).
-/

namespace DemoScaffold

open Number BinaryFormat

variable {size : ℕ} {r : ℚ}

/-! ## The value nearest to a size -/

theorem eq_size_of_le (hr : NearestBits 53 size r) (h : size ≤ 2 ^ 53) : r = size := by
  have hbits := hasBits_of_le (by decide) h 0
  rw [zpow_zero, mul_one] at hbits
  exact hr.eq_of_hasBits hbits

/-- A size has no more than 53 bits in units of 2048, the nearest of which is at most half a unit away. -/
theorem dist_size_le (hr : NearestBits 53 size r) (h : size < 2 ^ 64) : |size - r| ≤ 2 ^ 10 := by
  have hlow : 2 * (roundHalfEven size 2048 * 2048) ≤ 2 * size + 2048 := two_mul_roundHalfEven_le size 2048
  have hhigh : 2 * size ≤ 2 * (roundHalfEven size 2048 * 2048) + 2048 :=
    two_mul_le_roundHalfEven size (by decide)
  generalize roundHalfEven size 2048 = units at hlow hhigh
  have hbits : HasBits 53 (units * 2 ^ (11 : ℤ)) := hasBits_of_le (by decide) (by omega) 11
  refine (hr.near _ hbits).trans (abs_le.mpr ?_)
  have hlow' : 2 * (units * 2048 : ℚ) ≤ 2 * size + 2048 := by exact_mod_cast hlow
  have hhigh' : 2 * (size : ℚ) ≤ 2 * (units * 2048) + 2048 := by exact_mod_cast hhigh
  norm_num
  constructor <;> linarith

theorem inRange_size (h : size < 2 ^ 64) : InRange (size / (1 : ℕ)) := by
  rw [Nat.cast_one, div_one]
  rcases size.eq_zero_or_pos with rfl | hpos
  · exact .inl Nat.cast_zero
  · have hlow : (1 : ℚ) ≤ size := by exact_mod_cast hpos
    have hhigh : (size : ℚ) ≤ 2 ^ 64 := by exact_mod_cast h.le
    exact inRange_of_le (a := 0) (b := 64) (by decide) (by decide) (by simpa using hlow)
      (by exact_mod_cast hhigh)

theorem inRange_div (hr : NearestBits 53 size r) (h : size < 2 ^ 64) {k : ℕ} (hk : k ≤ 20) :
    InRange (r / 2 ^ k) := by
  rcases size.eq_zero_or_pos with rfl | hpos
  · left
    rw [eq_size_of_le hr (by decide), Nat.cast_zero, zero_div]
  · have hone : HasBits 53 1 := ⟨1, 0, by decide, by norm_num⟩
    have hpower : HasBits 53 (2 ^ 64) := ⟨1, 64, by decide, by norm_num⟩
    have hlow : (1 : ℚ) ≤ r := (nearestBits_self hone).mono hr (by exact_mod_cast hpos)
    have hhigh : r ≤ 2 ^ 64 := hr.mono (nearestBits_self hpower) (by exact_mod_cast h.le)
    have hunit : (1 : ℚ) ≤ 2 ^ k := one_le_pow₀ one_le_two
    have hunit' : (2 : ℚ) ^ k ≤ 2 ^ 20 := pow_le_pow_right₀ one_le_two hk
    refine inRange_of_le (a := -20) (b := 64) (by decide) (by decide) ?_ ?_
    · calc (2 : ℚ) ^ (-20 : ℤ) = 1 / 2 ^ 20 := by norm_num
        _ ≤ 1 / 2 ^ k := one_div_le_one_div_of_le (by positivity) hunit'
        _ ≤ r / 2 ^ k := div_le_div_of_nonneg_right hlow (by positivity)
    · exact (div_le_self (zero_le_one.trans hlow) hunit).trans (by exact_mod_cast hhigh)

/-- Dividing by 1024 is exact. -/
theorem represents_div {a : ℕ} (ha : binary64.Represents a r) (hr : HasBits 53 r)
    (h : InRange (r / 2 ^ 10)) :
    binary64.Represents (binary64.quotient a (binary64.nearest 1024 1)) (r / 2 ^ 10) ∧
      HasBits 53 (r / 2 ^ 10) := by
  have hpower : HasBits 53 ((2 : ℚ) ^ 10) := ⟨1, 10, by decide, by norm_num⟩
  obtain ⟨unit, hunit, hexact⟩ := represents_nearest 1024 one_pos
    (inRange_of_le (a := 10) (b := 10) (by decide) (by decide) (by norm_num) (by norm_num))
  obtain rfl : unit = 2 ^ 10 := by
    rw [show ((1024 : ℕ) / (1 : ℕ) : ℚ) = 2 ^ 10 by norm_num] at hexact
    exact hexact.eq_of_hasBits hpower
  obtain ⟨x, hx, hexact⟩ := represents_quotient ha hunit (by positivity) h
  have hbits : HasBits 53 (r / 2 ^ 10) := by
    have hscaled := hr.mul_zpow (-10)
    rwa [zpow_neg, ← div_eq_mul_inv] at hscaled
  rw [hexact.eq_of_hasBits hbits] at hx
  exact ⟨hx, hbits⟩

theorem represents_mebibytes (h : size < 2 ^ 64) :
    ∃ r, NearestBits 53 size r ∧ binary64.Represents (mebibytes size) (r / 2 ^ 20) := by
  obtain ⟨r, hsize, hr⟩ := represents_nearest size one_pos (inRange_size h)
  rw [Nat.cast_one, div_one] at hr
  have htwice : r / 2 ^ 10 / 2 ^ 10 = r / 2 ^ 20 := by rw [div_div, ← pow_add]
  obtain ⟨honce, hbits⟩ := represents_div hsize hr.hasBits (inRange_div hr h (by decide))
  refine ⟨r, hr, ?_⟩
  rw [← htwice]
  exact (represents_div honce hbits (by rw [htwice]; exact inRange_div hr h le_rfl)).1

theorem roundsTo_mebibyteDigits (h : size < 2 ^ 64) :
    ∃ r, NearestBits 53 size r ∧ RoundsTo 2 (mebibyteDigits size) (r / 2 ^ 20) := by
  obtain ⟨r, hr, m, e, hdecode, hvalue⟩ := represents_mebibytes h
  refine ⟨r, hr, ?_⟩
  have hrounds := roundsTo_signedFixed 2 false m e
  rw [hvalue, mebibyteDigits, hdecode]
  simpa [signedFixed] using hrounds

/-! ## The text -/

namespace BinaryInfo

/-- What a shown size has in front of its unit. -/
def figure (info : BinaryInfo) : List Char :=
  info.shownSize.toList.takeWhile (· ≠ ' ')

/-- What the figure stands for. -/
def shownMebibytes (info : BinaryInfo) : ℚ :=
  (Decimal.ofText info.figure).value

theorem figure_eq (info : BinaryInfo) : info.figure = mebibyteDigits info.size := by
  have hblank : ' ' ∉ mebibyteDigits info.size := by
    rw [mebibyteDigits]
    split
    · exact notMem_fixedDigits (by decide) (by decide) 2 _
    · exact List.not_mem_nil
  have htext : info.shownSize.toList = mebibyteDigits info.size ++
      ' ' :: ("MB (".toList ++ decimalDigits info.size ++ " bytes)".toList) := by
    simp [shownSize]
  rw [figure, htext, takeWhile_ne hblank]

theorem shownSize_eq (info : BinaryInfo) :
    info.shownSize = String.ofList info.figure ++ " MB (" ++
      String.ofList (decimalDigits info.size) ++ " bytes)" := by
  rw [figure_eq]
  rfl

theorem roundsTo_figure {info : BinaryInfo} (h : info.size < 2 ^ 64) :
    ∃ r, NearestBits 53 info.size r ∧ RoundsTo 2 info.figure (r / 2 ^ 20) := by
  rw [figure_eq]
  exact roundsTo_mebibyteDigits h

theorem shownMebibytes_mono {info other : BinaryInfo} (h : info.size ≤ other.size)
    (hother : other.size < 2 ^ 64) : info.shownMebibytes ≤ other.shownMebibytes := by
  obtain ⟨r, hr, hrounds⟩ := roundsTo_figure (h.trans_lt hother)
  obtain ⟨r', hr', hrounds'⟩ := roundsTo_figure hother
  have hle : r ≤ r' := hr.mono hr' (by exact_mod_cast h)
  exact hrounds.mono hrounds' (div_le_div_of_nonneg_right hle (by positivity))

theorem dist_shownMebibytes_le {info : BinaryInfo} (h : info.size < 2 ^ 64)
    (hr : NearestBits 53 info.size r) (hrounds : RoundsTo 2 info.figure (r / 2 ^ 20)) :
    |info.shownMebibytes - info.size / 2 ^ 20| ≤ 5 / 1000 + 1 / 2 ^ 10 := by
  have hshown := hrounds.dist_le
  have hsize := dist_size_le hr h
  rw [abs_le] at hshown hsize ⊢
  rw [shownMebibytes]
  constructor <;> linarith

/-- The figure is that of the value with 53 bits that is nearest to the size, which is the size itself up to
two to the 53rd, in mebibytes with two places. It is not far from the mebibytes of the size itself, and no
greater size has a lesser figure. The bytes that are shown are those of the size. -/
theorem shownSize_rounds (info : BinaryInfo) (h : info.size < 2 ^ 64) :
    ∃ (r : ℚ) (bytes : List Char),
      info.shownSize = String.ofList info.figure ++ " MB (" ++ String.ofList bytes ++ " bytes)" ∧
      IsNumeral info.size bytes ∧
      NearestBits 53 info.size r ∧ (info.size ≤ 2 ^ 53 → r = info.size) ∧
      RoundsTo 2 info.figure (r / 2 ^ 20) ∧
      |info.shownMebibytes - info.size / 2 ^ 20| ≤ 5 / 1000 + 1 / 2 ^ 10 ∧
      ∀ other : BinaryInfo, info.size ≤ other.size → other.size < 2 ^ 64 →
        info.shownMebibytes ≤ other.shownMebibytes := by
  obtain ⟨r, hr, hrounds⟩ := roundsTo_figure h
  exact ⟨r, _, info.shownSize_eq, isNumeral_decimalDigits _, hr, eq_size_of_le hr, hrounds,
    dist_shownMebibytes_le h hr hrounds, fun _ hle hother => shownMebibytes_mono hle hother⟩

/-- The least size that is not its own nearest value. -/
def halfway : BinaryInfo :=
  ⟨⟨"demo.wasm"⟩, 2 ^ 53 + 1, ""⟩

/-- The greatest size. -/
def greatest : BinaryInfo :=
  ⟨⟨"demo.wasm"⟩, 2 ^ 64 - 1, ""⟩

theorem halfway_rounds : halfway.size < 2 ^ 64 ∧ ∃ (r : ℚ) (bytes : List Char),
    halfway.shownSize =
      String.ofList halfway.figure ++ " MB (" ++ String.ofList bytes ++ " bytes)" ∧
    IsNumeral halfway.size bytes ∧ NearestBits 53 halfway.size r ∧
    RoundsTo 2 halfway.figure (r / 2 ^ 20) ∧ halfway.shownMebibytes ≤ greatest.shownMebibytes := by
  have hsize : halfway.size < 2 ^ 64 := by decide
  obtain ⟨r, bytes, htext, hbytes, hr, -, hrounds, -, hmono⟩ := halfway.shownSize_rounds hsize
  exact ⟨hsize, r, bytes, htext, hbytes, hr, hrounds, hmono greatest (by decide) (by decide)⟩

-- An eighth of a mebibyte is halfway between two figures.
example : (⟨⟨"demo.wasm"⟩, 131072, ""⟩ : BinaryInfo).shownSize = "0.12 MB (131072 bytes)" := by
  decide +kernel

end BinaryInfo

end DemoScaffold
