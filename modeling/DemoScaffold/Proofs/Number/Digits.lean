import DemoScaffold.Number.Reading
import Mathlib.Data.List.Basic

/-!
# Decimal digits

Digits that are written are read back as the same number, also with zeros in front, and a number has no zero
in front unless it is zero (`ofDigits_decimalDigits`, `ofDigits_paddedDigits`, `decimalDigits_of_head?`).
-/

namespace DemoScaffold.Number

variable {c : Char} {n width : Nat}

theorem ofDigits_concat (ds : List Char) (c : Char) :
    ofDigits (ds ++ [c]) = ofDigits ds * 10 + (c.toNat - '0'.toNat) := by
  simp [ofDigits]

theorem ofDigits_concat_digitChar (ds : List Char) (n : Nat) :
    ofDigits (ds ++ [Nat.digitChar (n % 10)]) = ofDigits ds * 10 + n % 10 := by
  have hdigit : (Nat.digitChar (n % 10)).toNat - '0'.toNat = n % 10 :=
    Nat.toNat_digitChar_sub_48_of_lt_ten (Nat.mod_lt n (by decide))
  rw [ofDigits_concat, hdigit]

theorem ofDigits_eq (ds : List Char) : ofDigits ds = Nat.ofDigitChars 10 ds 0 := by
  simp [ofDigits, Nat.ofDigitChars, Nat.mul_comm]

theorem ofDigits_decimalDigits (n : Nat) : ofDigits (decimalDigits n) = n := by
  rw [ofDigits_eq, decimalDigits, Nat.ofDigitChars_ten_toDigits]

theorem isDigit_of_mem_decimalDigits (h : c ∈ decimalDigits n) : c.isDigit = true :=
  Nat.isDigit_of_mem_toDigits (by decide) (by decide) h

theorem notMem_decimalDigits (hc : c.isDigit = false) (n : Nat) : c ∉ decimalDigits n := by
  intro h
  rw [isDigit_of_mem_decimalDigits h] at hc
  cases hc

theorem filter_decimalDigits (n : Nat) : (decimalDigits n).filter Char.isDigit = decimalDigits n :=
  List.filter_eq_self.mpr fun _ hc => isDigit_of_mem_decimalDigits hc

theorem decimalDigits_ne_nil (n : Nat) : decimalDigits n ≠ [] :=
  Nat.toDigits_ne_nil

/-- Only zero begins with a zero. -/
theorem decimalDigits_of_head? (h : (decimalDigits n).head? = some '0') : decimalDigits n = ['0'] := by
  have hzero : n = 0 := by
    induction n using Nat.base_induction 10 (by decide) with
    | single m hm =>
        rw [decimalDigits, Nat.toDigits_of_lt_base hm] at h
        simpa using h
    | digit m k hk hm ih =>
        exfalso
        rw [decimalDigits, ← Nat.toDigits_append_toDigits (by decide) hm hk,
          List.head?_append_of_ne_nil _ Nat.toDigits_ne_nil] at h
        have hm' : m = 0 := ih h
        omega
  rw [hzero]
  rfl

/-- The digits that stand for a number: at least one, and none too many in front. -/
structure IsNumeral (n : Nat) (s : List Char) : Prop where
  ne_nil : s ≠ []
  digits : ∀ c ∈ s, c.isDigit = true
  lead : s.head? = some '0' → s = ['0']
  value : ofDigits s = n

theorem isNumeral_decimalDigits (n : Nat) : IsNumeral n (decimalDigits n) where
  ne_nil := decimalDigits_ne_nil n
  digits := fun _ hc => isDigit_of_mem_decimalDigits hc
  lead := decimalDigits_of_head?
  value := ofDigits_decimalDigits n

theorem length_paddedDigits (width n : Nat) : (paddedDigits width n).length = width := by
  induction width generalizing n with
  | zero => rfl
  | succ width ih => simp [paddedDigits, ih]

theorem isDigit_of_mem_paddedDigits (h : c ∈ paddedDigits width n) : c.isDigit = true := by
  induction width generalizing n with
  | zero => cases h
  | succ width ih =>
      rw [paddedDigits, List.mem_append, List.mem_singleton] at h
      rcases h with h | rfl
      · exact ih h
      · simpa using Nat.mod_lt n (by decide)

theorem notMem_paddedDigits (hc : c.isDigit = false) (width n : Nat) : c ∉ paddedDigits width n := by
  intro h
  rw [isDigit_of_mem_paddedDigits h] at hc
  cases hc

theorem ofDigits_paddedDigits (h : n < Nat.pow 10 width) : ofDigits (paddedDigits width n) = n := by
  induction width generalizing n with
  | zero =>
      have hzero : n = 0 := by simpa using h
      rw [hzero]
      rfl
  | succ width ih =>
      have hlead : n / 10 < Nat.pow 10 width := Nat.div_lt_of_lt_mul (by rwa [Nat.pow_eq, Nat.pow_succ'] at h)
      rw [paddedDigits, ofDigits_concat_digitChar, ih hlead]
      omega

end DemoScaffold.Number
