import DemoScaffold.Json.Text
import Mathlib.Tactic.SplitIfs

/-!
# Quoted texts

A quoted character is read back as that character and has the length that is counted for it, whatever
follows. So a quoted text is read back as that text (`readText_quoted`).
-/

namespace DemoScaffold.Json

/-! ## One character -/

theorem hexValue?_digitChar : ∀ n < 16, hexValue? (Nat.digitChar n) = some n := by decide

/-- What follows the backslash of an escape that stands for a character, in a text that is read and in
one that is passed over. -/
structure IsEscape (c : Char) (escape : List Char) : Prop where
  read : ∀ rest, readEscape (escape ++ rest) = .ok (c, escape.length)
  skip : ∀ rest, skipEscape (escape ++ rest) = .ok escape.length

theorem isEscape_of_short {c e : Char} (hu : e ≠ 'u') (h : shortEscape? e = some c) :
    IsEscape c [e] := by
  constructor
  · intro rest
    simp only [readEscape, List.cons_append, List.nil_append, h]
    rfl
  · intro rest
    simp only [skipEscape, List.cons_append, List.nil_append, h]
    rfl

theorem isEscape_of_control {c : Char} (h : c.toNat < 32) :
    IsEscape c ['u', '0', '0', Nat.digitChar (c.toNat / 16), Nat.digitChar (c.toNat % 16)] := by
  have hzero : hexValue? '0' = some 0 := by decide
  have hhigh := hexValue?_digitChar (c.toNat / 16) (by omega)
  have hlow := hexValue?_digitChar (c.toNat % 16) (by omega)
  have hcode : ((0 * 16 + 0) * 16 + c.toNat / 16) * 16 + c.toNat % 16 = c.toNat := by omega
  have hhex (rest : List Char) :
      readHex ('0' :: '0' :: Nat.digitChar (c.toNat / 16) :: Nat.digitChar (c.toNat % 16) :: rest) =
        .ok c.toNat := by
    simp only [readHex, hzero, hhigh, hlow, hcode]
  constructor
  · intro rest
    simp only [readEscape, List.cons_append, List.nil_append, hhex, bind, Except.bind]
    rw [if_neg (by omega), if_neg (by omega), Char.ofNat_toNat]
    rfl
  · intro rest
    simp only [skipEscape, List.cons_append, List.nil_append, hhex]
    rfl

/-- A quoted character is an escape or stands for itself. -/
theorem quotedChar_cases (c : Char) :
    (∃ escape, quotedChar c = '\\' :: escape ∧ IsEscape c escape) ∨
      quotedChar c = [c] ∧ c ≠ '"' ∧ c ≠ '\\' ∧ ¬ c < ' ' := by
  rw [quotedChar]
  split_ifs with hquote hbackslash hb hf hn hr ht hcontrol
  · exact .inl ⟨['"'], rfl, isEscape_of_short (by decide) (by rw [hquote]; rfl)⟩
  · exact .inl ⟨['\\'], rfl, isEscape_of_short (by decide) (by rw [hbackslash]; rfl)⟩
  · exact .inl ⟨['b'], rfl, isEscape_of_short (by decide) (hb ▸ rfl)⟩
  · exact .inl ⟨['f'], rfl, isEscape_of_short (by decide) (hf ▸ rfl)⟩
  · exact .inl ⟨['n'], rfl, isEscape_of_short (by decide) (hn ▸ rfl)⟩
  · exact .inl ⟨['r'], rfl, isEscape_of_short (by decide) (hr ▸ rfl)⟩
  · exact .inl ⟨['t'], rfl, isEscape_of_short (by decide) (ht ▸ rfl)⟩
  · exact .inl ⟨_, rfl, isEscape_of_control hcontrol⟩
  · exact .inr ⟨rfl, hquote, hbackslash, hcontrol⟩

theorem readTextAfter_append (skipped rest : List Char) :
    readTextAfter skipped.length (skipped ++ rest) = readTextAfter 0 rest := by
  induction skipped with
  | nil => rfl
  | cons c more ih =>
      rw [List.length_cons, List.cons_append, readTextAfter]
      exact ih

theorem textLengthAfter_append (skipped rest : List Char) :
    textLengthAfter skipped.length (skipped ++ rest) =
      (textLengthAfter 0 rest).map (· + skipped.length) := by
  induction skipped with
  | nil => cases h : textLengthAfter 0 rest <;> simp [h, Except.map]
  | cons c more ih =>
      rw [List.length_cons, List.cons_append, textLengthAfter, ih]
      cases textLengthAfter 0 rest with
      | error fault => rfl
      | ok n => rfl

theorem readTextAfter_quotedChar (c : Char) (rest : List Char) :
    readTextAfter 0 (quotedChar c ++ rest) = (readTextAfter 0 rest).map (c :: ·) := by
  rcases quotedChar_cases c with ⟨escape, hc, hescape⟩ | ⟨hc, hquote, hbackslash, hcontrol⟩
  · rw [hc, List.cons_append, readTextAfter, if_neg (by decide), if_pos rfl, hescape.read]
    simp only [bind, Except.bind]
    rw [readTextAfter_append]
    cases readTextAfter 0 rest <;> rfl
  · rw [hc, List.cons_append, List.nil_append, readTextAfter, if_neg hquote, if_neg hbackslash,
      if_neg hcontrol]

theorem textLengthAfter_quotedChar (c : Char) (rest : List Char) :
    textLengthAfter 0 (quotedChar c ++ rest) =
      (textLengthAfter 0 rest).map (· + (quotedChar c).length) := by
  rcases quotedChar_cases c with ⟨escape, hc, hescape⟩ | ⟨hc, hquote, hbackslash, hcontrol⟩
  · rw [hc, List.cons_append, textLengthAfter, if_neg (by decide), if_pos rfl, hescape.skip]
    simp only [bind, Except.bind]
    rw [textLengthAfter_append]
    cases textLengthAfter 0 rest <;> rfl
  · rw [hc, List.cons_append, List.nil_append, textLengthAfter, if_neg hquote, if_neg hbackslash,
      if_neg hcontrol]
    rfl

/-! ## Texts -/

theorem readText_quoted (s rest : List Char) :
    readText (s.flatMap quotedChar ++ '"' :: rest) = .ok s := by
  rw [readText]
  induction s with
  | nil => rfl
  | cons c more ih =>
      rw [List.flatMap_cons, List.append_assoc, readTextAfter_quotedChar, ih]
      rfl

theorem textLength_quoted (s rest : List Char) :
    textLength (s.flatMap quotedChar ++ '"' :: rest) =
      .ok (s.flatMap quotedChar ++ ['"']).length := by
  rw [textLength]
  induction s with
  | nil => rfl
  | cons c more ih =>
      rw [List.flatMap_cons, List.append_assoc, textLengthAfter_quotedChar, ih, Except.map]
      congr 1
      simp only [List.length_append]
      omega

end DemoScaffold.Json
