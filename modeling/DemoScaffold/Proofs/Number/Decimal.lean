import DemoScaffold.Proofs.Number.Digits
import DemoScaffold.Proofs.Number.Nearest
import DemoScaffold.Proofs.Text.Spans
import Mathlib.Algebra.Order.Ring.Abs

/-!
# Decimals with a fixed number of places

What a decimal stands for is read off its text. A finite binary value is written as the decimal that it is
nearest to, and only negative decimals have a sign (`roundsTo_signedFixed`).
-/

namespace DemoScaffold.Number

/-- A decimal: whether it has a minus sign, and its digits in front of the point and behind. -/
structure Decimal where
  negative : Bool
  whole : List Char
  fraction : List Char
deriving DecidableEq

namespace Decimal

def text (d : Decimal) : List Char :=
  (if d.negative then ['-'] else []) ++ d.whole ++ '.' :: d.fraction

def value (d : Decimal) : ℚ :=
  (if d.negative then -1 else 1) * (ofDigits d.whole + ofDigits d.fraction / 10 ^ d.fraction.length)

/-- Takes a text apart behind its sign and at what follows its first digits. -/
def ofText (s : List Char) : Decimal :=
  let digits := if s.head? = some '-' then s.tail else s
  ⟨s.head? = some '-', digits.takeWhile Char.isDigit, (digits.dropWhile Char.isDigit).tail⟩

/-- Digits on either side of the point, behind it as many as there are places, and in front of it no zero
unless it is the only digit. -/
structure IsFixed (places : ℕ) (d : Decimal) : Prop where
  whole_ne_nil : d.whole ≠ []
  whole_digits : ∀ c ∈ d.whole, c.isDigit = true
  whole_lead : d.whole.head? = some '0' → d.whole = ['0']
  fraction_length : d.fraction.length = places
  fraction_digits : ∀ c ∈ d.fraction, c.isDigit = true

variable {d : Decimal} {places : ℕ}

theorem ofText_text (h : d.IsFixed places) : ofText d.text = d := by
  obtain ⟨negative, whole, fraction⟩ := d
  have hwhole : (whole ++ '.' :: fraction).takeWhile Char.isDigit = whole :=
    takeWhile_stop h.whole_digits (by decide)
  have hfraction : (whole ++ '.' :: fraction).dropWhile Char.isDigit = '.' :: fraction :=
    dropWhile_stop h.whole_digits (by decide)
  have hminus : (whole ++ '.' :: fraction).head? ≠ some '-' := by
    rw [List.head?_append_of_ne_nil _ h.whole_ne_nil]
    intro hhead
    exact absurd (h.whole_digits _ (List.mem_of_mem_head? hhead)) (by decide)
  cases negative with
  | true => simp [text, ofText, hwhole, hfraction]
  | false =>
      have htext : text ⟨false, whole, fraction⟩ = whole ++ '.' :: fraction := by simp [text]
      simp only [htext, ofText, hminus, if_false, hwhole, hfraction, decide_false, List.tail_cons]

end Decimal

/-- The text is the decimal with as many places that is nearest to `q`, a half going to the one with an even
last digit. It has a minus sign exactly if it stands for less than zero. -/
structure RoundsTo (places : ℕ) (s : List Char) (q : ℚ) : Prop where
  spelled : (Decimal.ofText s).text = s
  form : (Decimal.ofText s).IsFixed places
  nearest : ∃ k : ℤ, NearestEven (q * 10 ^ places) k ∧ (Decimal.ofText s).value = k / 10 ^ places
  signed : (Decimal.ofText s).negative = true ↔ (Decimal.ofText s).value < 0

variable {places : ℕ} {s t : List Char} {q r : ℚ}

/-- A larger number is not written as a smaller decimal. -/
theorem RoundsTo.mono (hs : RoundsTo places s q) (ht : RoundsTo places t r) (h : q ≤ r) :
    (Decimal.ofText s).value ≤ (Decimal.ofText t).value := by
  obtain ⟨k, hk, hs⟩ := hs.nearest
  obtain ⟨l, hl, ht⟩ := ht.nearest
  have hscale : (0 : ℚ) < 10 ^ places := by positivity
  have hle : k ≤ l := hk.mono hl (mul_le_mul_of_nonneg_right h hscale.le)
  rw [hs, ht]
  exact div_le_div_of_nonneg_right (by exact_mod_cast hle) hscale.le

/-- The decimal is at most half a unit of its last place away. -/
theorem RoundsTo.dist_le (hs : RoundsTo places s q) :
    |(Decimal.ofText s).value - q| ≤ 1 / 2 / 10 ^ places := by
  obtain ⟨k, hk, hvalue⟩ := hs.nearest
  have hscale : (0 : ℚ) < 10 ^ places := by positivity
  have hdist : |(k : ℚ) / 10 ^ places - q| * 10 ^ places = |q * 10 ^ places - k| := by
    rw [abs_sub_comm, ← abs_of_pos hscale, ← abs_mul, abs_of_pos hscale, sub_mul,
      div_mul_cancel₀ _ hscale.ne']
  rw [hvalue, le_div_iff₀ hscale, hdist]
  exact hk.near

/-- The decimal that is `scaled` units of the last place. -/
def fixedDecimal (places scaled : ℕ) (negative : Bool) : Decimal :=
  ⟨negative, decimalDigits (scaled / Nat.pow 10 places),
    paddedDigits places (scaled % Nat.pow 10 places)⟩

theorem isFixed_fixedDecimal (places scaled : ℕ) (negative : Bool) :
    (fixedDecimal places scaled negative).IsFixed places where
  whole_ne_nil := decimalDigits_ne_nil _
  whole_digits := fun _ hc => isDigit_of_mem_decimalDigits hc
  whole_lead := decimalDigits_of_head?
  fraction_length := length_paddedDigits _ _
  fraction_digits := fun _ hc => isDigit_of_mem_paddedDigits hc

theorem text_fixedDecimal (places scaled : ℕ) (negative : Bool) :
    (fixedDecimal places scaled negative).text =
      (if negative then ['-'] else []) ++ fixedDigits places scaled := by
  rw [Decimal.text, List.append_assoc]
  rfl

theorem value_fixedDecimal (places scaled : ℕ) (negative : Bool) :
    (fixedDecimal places scaled negative).value =
      ((if negative then -scaled else scaled : ℤ) : ℚ) / 10 ^ places := by
  have hscale : (10 : ℚ) ^ places ≠ 0 := by positivity
  have hlt : scaled % 10 ^ places < 10 ^ places := Nat.mod_lt _ (by positivity)
  have hdiv : (10 : ℚ) ^ places * (scaled / 10 ^ places : ℕ) + (scaled % 10 ^ places : ℕ) = scaled := by
    exact_mod_cast Nat.div_add_mod scaled (10 ^ places)
  have hsize : ((scaled / 10 ^ places : ℕ) : ℚ) + (scaled % 10 ^ places : ℕ) / 10 ^ places =
      scaled / 10 ^ places := by
    rw [← hdiv]
    field_simp
  simp only [fixedDecimal, Decimal.value, Nat.pow_eq, ofDigits_decimalDigits, ofDigits_paddedDigits hlt,
    length_paddedDigits, hsize]
  cases negative with
  | true => simp [neg_div]
  | false => simp

theorem roundsTo_text {scaled : ℕ} {negative : Bool}
    (hnearest : NearestEven (q * 10 ^ places) (if negative then -scaled else scaled))
    (hzero : negative = true → scaled ≠ 0) :
    RoundsTo places (fixedDecimal places scaled negative).text q := by
  have hform := isFixed_fixedDecimal places scaled negative
  have hread := Decimal.ofText_text hform
  have hvalue := value_fixedDecimal places scaled negative
  have hscale : (0 : ℚ) < 10 ^ places := by positivity
  constructor
  · rw [hread]
  · rw [hread]
    exact hform
  · exact ⟨_, hnearest, by rw [hread, hvalue]⟩
  · rw [hread, hvalue, div_lt_iff₀ hscale, zero_mul]
    cases negative with
    | true =>
        have hpos : 0 < scaled := Nat.pos_of_ne_zero (hzero rfl)
        simpa [fixedDecimal] using hpos
    | false => simp [fixedDecimal]

theorem notMem_fixedDigits {c : Char} (hdigit : c.isDigit = false) (hpoint : c ≠ '.') (places scaled : ℕ) :
    c ∉ fixedDigits places scaled := by
  intro h
  rw [fixedDigits, List.mem_append, List.mem_cons] at h
  rcases h with h | h | h
  · exact notMem_decimalDigits hdigit _ h
  · exact hpoint h
  · exact notMem_paddedDigits hdigit _ _ h

/-- What is written for a finite binary value: the sign if it is negative and does not round to zero, and the
digits. -/
def signedFixed (places : ℕ) (negative : Bool) (m : ℕ) (e : ℤ) : List Char :=
  let scaled := scaledNearest places m e
  if negative && scaled ≠ 0 then '-' :: fixedDigits places scaled else fixedDigits places scaled

theorem signedFixed_eq (places : ℕ) (negative : Bool) (m : ℕ) (e : ℤ) :
    signedFixed places negative m e =
      (fixedDecimal places (scaledNearest places m e) (negative && scaledNearest places m e ≠ 0)).text := by
  rw [text_fixedDecimal, signedFixed]
  split <;> rfl

theorem roundsTo_signedFixed (places : ℕ) (negative : Bool) (m : ℕ) (e : ℤ) :
    RoundsTo places (signedFixed places negative m e) ((if negative then -1 else 1) * (m * 2 ^ e)) := by
  have hnearest := nearestEven_scaledNearest places m e
  rw [signedFixed_eq]
  apply roundsTo_text
  · cases negative with
    | false => simpa using hnearest
    | true =>
        have hneg := hnearest.neg
        by_cases hzero : scaledNearest places m e = 0
        · simpa [hzero, mul_assoc] using hneg
        · simpa [hzero, mul_assoc] using hneg
  · intro hsign
    simpa using (Bool.and_eq_true_iff.mp hsign).2

end DemoScaffold.Number
