import DemoScaffold.Text.Utf8
import Mathlib.Tactic.SplitIfs

/-!
# Encoded texts

What has been encoded in UTF-8 is decoded to what it was (`decode?_encode`). The decoder comes to the end
of every encoded character with that character as its last stretch, and then nothing has begun. Whatever has
begun in front of an ASCII byte ends there, so bytes that are no text are decoded line by line
(`decodeLossy_append_ascii`).
-/

namespace DemoScaffold.Text.Utf8

variable {b : UInt8} {c : Char} {v n : Nat} {p : Begun} {ss : List (Option Char)}

/-! ## First bytes -/

theorem toNat_ofNat (h : n < 256) : (UInt8.ofNat n).toNat = n := by
  simp [Nat.mod_eq_of_lt h]

theorem lead_eq (b : UInt8) :
    lead b =
      if b.toNat ≤ 0x7F then .whole (Char.ofNat b.toNat)
      else if 0xC2 ≤ b.toNat ∧ b.toNat ≤ 0xDF then .begins { more := 0, bits := b.toNat - 0xC0 }
      else if b.toNat = 0xE0 then .begins { more := 1, low := 0xA0, bits := 0 }
      else if b.toNat = 0xED then .begins { more := 1, high := 0x9F, bits := 0xD }
      else if 0xE1 ≤ b.toNat ∧ b.toNat ≤ 0xEF then .begins { more := 1, bits := b.toNat - 0xE0 }
      else if b.toNat = 0xF0 then .begins { more := 2, low := 0x90, bits := 0 }
      else if b.toNat = 0xF4 then .begins { more := 2, high := 0x8F, bits := 4 }
      else if 0xF1 ≤ b.toNat ∧ b.toNat ≤ 0xF3 then .begins { more := 2, bits := b.toNat - 0xF0 }
      else .invalid := by
  simp only [lead, UInt8.le_iff_toNat_le, ← UInt8.toNat_inj, UInt8.reduceToNat]

/-- What has begun if `more` bytes follow the one after it, and that one may be `next`. -/
structure Begun.Awaits (p : Begun) (more bits next : Nat) : Prop where
  more : p.more = more
  bits : p.bits = bits
  low : p.low.toNat ≤ next
  high : next ≤ p.high.toNat

theorem lead_of_two (hv : 0x80 ≤ v) (hv' : v ≤ 0x7FF) (hb : b.toNat = v / 64 + 0xC0) :
    ∃ p, lead b = .begins p ∧ p.Awaits 0 (v / 64) (v % 64 + 0x80) := by
  refine ⟨{ more := 0, bits := b.toNat - 0xC0 }, ?_, rfl, ?_, ?_, ?_⟩
  · rw [lead_eq, if_neg (by omega), if_pos (by omega)]
  · simp [hb]
  · simp
  · simp only [UInt8.reduceToNat]
    omega

theorem lead_of_three (hv : 0x800 ≤ v) (hv' : v ≤ 0xFFFF) (hc : v < 0xD800 ∨ 0xDFFF < v)
    (hb : b.toNat = v / 4096 + 0xE0) :
    ∃ p, lead b = .begins p ∧ p.Awaits 1 (v / 4096) (v / 64 % 64 + 0x80) := by
  by_cases hlow : v / 4096 = 0
  · refine ⟨{ more := 1, low := 0xA0, bits := 0 }, ?_, rfl, hlow.symm, ?_, ?_⟩
    · rw [lead_eq, if_neg (by omega), if_neg (by omega), if_pos (by omega)]
    · simp only [UInt8.reduceToNat]
      omega
    · simp only [UInt8.reduceToNat]
      omega
  by_cases hhigh : v / 4096 = 13
  · refine ⟨{ more := 1, high := 0x9F, bits := 0xD }, ?_, rfl, hhigh.symm, ?_, ?_⟩
    · rw [lead_eq, if_neg (by omega), if_neg (by omega), if_neg (by omega), if_pos (by omega)]
    · simp
    · simp only [UInt8.reduceToNat]
      omega
  · refine ⟨{ more := 1, bits := b.toNat - 0xE0 }, ?_, rfl, ?_, ?_, ?_⟩
    · rw [lead_eq, if_neg (by omega), if_neg (by omega), if_neg (by omega), if_neg (by omega),
        if_pos (by omega)]
    · simp [hb]
    · simp
    · simp only [UInt8.reduceToNat]
      omega

theorem lead_of_four (hv : 0x10000 ≤ v) (hv' : v ≤ 0x10FFFF) (hb : b.toNat = v / 262144 + 0xF0) :
    ∃ p, lead b = .begins p ∧ p.Awaits 2 (v / 262144) (v / 4096 % 64 + 0x80) := by
  by_cases hlow : v / 262144 = 0
  · refine ⟨{ more := 2, low := 0x90, bits := 0 }, ?_, rfl, hlow.symm, ?_, ?_⟩
    · rw [lead_eq, if_neg (by omega), if_neg (by omega), if_neg (by omega), if_neg (by omega),
        if_neg (by omega), if_pos (by omega)]
    · simp only [UInt8.reduceToNat]
      omega
    · simp only [UInt8.reduceToNat]
      omega
  by_cases hhigh : v / 262144 = 4
  · refine ⟨{ more := 2, high := 0x8F, bits := 4 }, ?_, rfl, hhigh.symm, ?_, ?_⟩
    · rw [lead_eq, if_neg (by omega), if_neg (by omega), if_neg (by omega), if_neg (by omega),
        if_neg (by omega), if_neg (by omega), if_pos (by omega)]
    · simp
    · simp only [UInt8.reduceToNat]
      omega
  · refine ⟨{ more := 2, bits := b.toNat - 0xF0 }, ?_, rfl, ?_, ?_, ?_⟩
    · rw [lead_eq, if_neg (by omega), if_neg (by omega), if_neg (by omega), if_neg (by omega),
        if_neg (by omega), if_neg (by omega), if_neg (by omega), if_pos (by omega)]
    · simp [hb]
    · simp
    · simp only [UInt8.reduceToNat]
      omega

/-! ## Further bytes -/

theorem step_between (b : UInt8) : Decoder.step ⟨ss, none⟩ b = .begin ss (lead b) := rfl

theorem step_begun (h : p.low ≤ b ∧ b ≤ p.high) :
    Decoder.step ⟨ss, some p⟩ b = .begin ss (p.next b) :=
  if_pos h

theorem step_begun_of_not (h : ¬ (p.low ≤ b ∧ b ≤ p.high)) :
    Decoder.step ⟨ss, some p⟩ b = .begin (none :: ss) (lead b) :=
  if_neg h

/-- A byte that is awaited takes its six bits to those that have begun. -/
theorem step_of_awaits {more bits next : Nat} (hp : p.Awaits more bits next) (h : next < 256) :
    Decoder.step ⟨ss, some p⟩ (UInt8.ofNat next) =
      .begin ss (Begun.next { more, bits } (UInt8.ofNat next)) := by
  have hin : p.low ≤ UInt8.ofNat next ∧ UInt8.ofNat next ≤ p.high := by
    rw [UInt8.le_iff_toNat_le, UInt8.le_iff_toNat_le, toNat_ofNat h]
    exact ⟨hp.low, hp.high⟩
  obtain ⟨rfl, rfl, -, -⟩ := hp
  exact step_begun hin

/-- After the second byte the range is that of all further bytes. -/
theorem awaits_further (more bits : Nat) (n : Nat) :
    ({ more, bits } : Begun).Awaits more bits (n % 64 + 0x80) := by
  refine ⟨rfl, rfl, ?_, ?_⟩
  · simp
  · simp only [UInt8.reduceToNat]
    omega

theorem next_last (bits n : Nat) :
    Begun.next { more := 0, bits } (UInt8.ofNat (n % 64 + 0x80)) =
      .whole (Char.ofNat (bits * 64 + n % 64)) := by
  simp only [Begun.next, toNat_ofNat (show n % 64 + 0x80 < 256 by omega), Nat.add_sub_cancel]

theorem next_further (more bits n : Nat) :
    Begun.next { more := more + 1, bits } (UInt8.ofNat (n % 64 + 0x80)) =
      .begins { more, bits := bits * 64 + n % 64 } := by
  simp only [Begun.next, toNat_ofNat (show n % 64 + 0x80 < 256 by omega), Nat.add_sub_cancel]

/-! ## Characters -/

theorem decoder_one (hv : v ≤ 0x7F) (ss : List (Option Char)) :
    [UInt8.ofNat v].foldl Decoder.step ⟨ss, none⟩ = ⟨some (Char.ofNat v) :: ss, none⟩ := by
  have hb : (UInt8.ofNat v).toNat = v := toNat_ofNat (by omega)
  rw [List.foldl_cons, List.foldl_nil, step_between, lead_eq, hb, if_pos hv, Decoder.begin]

theorem decoder_two (hv : 0x80 ≤ v) (hv' : v ≤ 0x7FF) (ss : List (Option Char)) :
    [UInt8.ofNat (v / 64 % 32 + 0xC0), UInt8.ofNat (v % 64 + 0x80)].foldl
      Decoder.step ⟨ss, none⟩ = ⟨some (Char.ofNat v) :: ss, none⟩ := by
  have hb : (UInt8.ofNat (v / 64 % 32 + 0xC0)).toNat = v / 64 + 0xC0 := by
    rw [toNat_ofNat (by omega), Nat.mod_eq_of_lt (by omega)]
  obtain ⟨p, hlead, hp⟩ := lead_of_two hv hv' hb
  rw [List.foldl_cons, List.foldl_cons, List.foldl_nil, step_between, hlead, Decoder.begin,
    step_of_awaits hp (by omega), next_last, Decoder.begin, Nat.div_add_mod']

theorem decoder_three (hv : 0x800 ≤ v) (hv' : v ≤ 0xFFFF) (hc : v < 0xD800 ∨ 0xDFFF < v)
    (ss : List (Option Char)) :
    [UInt8.ofNat (v / 4096 % 16 + 0xE0), UInt8.ofNat (v / 64 % 64 + 0x80),
      UInt8.ofNat (v % 64 + 0x80)].foldl Decoder.step ⟨ss, none⟩ =
      ⟨some (Char.ofNat v) :: ss, none⟩ := by
  have hb : (UInt8.ofNat (v / 4096 % 16 + 0xE0)).toNat = v / 4096 + 0xE0 := by
    rw [toNat_ofNat (by omega), Nat.mod_eq_of_lt (by omega)]
  obtain ⟨p, hlead, hp⟩ := lead_of_three hv hv' hc hb
  have hbits : (v / 4096 * 64 + v / 64 % 64) * 64 + v % 64 = v := by omega
  rw [List.foldl_cons, List.foldl_cons, List.foldl_cons, List.foldl_nil, step_between, hlead,
    Decoder.begin, step_of_awaits hp (by omega), next_further, Decoder.begin,
    step_of_awaits (awaits_further _ _ v) (by omega), next_last, Decoder.begin, hbits]

theorem decoder_four (hv : 0x10000 ≤ v) (hv' : v ≤ 0x10FFFF) (ss : List (Option Char)) :
    [UInt8.ofNat (v / 262144 % 8 + 0xF0), UInt8.ofNat (v / 4096 % 64 + 0x80),
      UInt8.ofNat (v / 64 % 64 + 0x80), UInt8.ofNat (v % 64 + 0x80)].foldl
      Decoder.step ⟨ss, none⟩ = ⟨some (Char.ofNat v) :: ss, none⟩ := by
  have hb : (UInt8.ofNat (v / 262144 % 8 + 0xF0)).toNat = v / 262144 + 0xF0 := by
    rw [toNat_ofNat (by omega), Nat.mod_eq_of_lt (by omega)]
  obtain ⟨p, hlead, hp⟩ := lead_of_four hv hv' hb
  have hbits :
      ((v / 262144 * 64 + v / 4096 % 64) * 64 + v / 64 % 64) * 64 + v % 64 = v := by omega
  rw [List.foldl_cons, List.foldl_cons, List.foldl_cons, List.foldl_cons, List.foldl_nil,
    step_between, hlead, Decoder.begin, step_of_awaits hp (by omega), next_further,
    Decoder.begin, step_of_awaits (awaits_further _ _ (v / 64)) (by omega), next_further,
    Decoder.begin, step_of_awaits (awaits_further _ _ v) (by omega), next_last, Decoder.begin,
    hbits]

theorem decoder_encodeChar (c : Char) (ss : List (Option Char)) :
    (String.utf8EncodeChar c).foldl Decoder.step ⟨ss, none⟩ = ⟨some c :: ss, none⟩ := by
  have hvalid : c.val.toNat < 0xD800 ∨ 0xDFFF < c.val.toNat ∧ c.val.toNat < 0x110000 := c.valid
  have hchar : Char.ofNat c.val.toNat = c := Char.ofNat_toNat c
  rw [String.utf8EncodeChar]
  generalize c.val.toNat = v at hvalid hchar
  subst hchar
  split
  · next h1 => exact decoder_one h1 ss
  split
  · next h1 h2 => exact decoder_two (by omega) h2 ss
  split
  · next h2 h3 => exact decoder_three (by omega) h3 (by omega) ss
  · next h3 => exact decoder_four (by omega) (by omega) ss

/-! ## Texts -/

theorem decoder_encode (s : List Char) (ss : List (Option Char)) :
    (encode s).foldl Decoder.step ⟨ss, none⟩ = ⟨(s.map some).reverse ++ ss, none⟩ := by
  induction s generalizing ss with
  | nil => rfl
  | cons c rest ih =>
    rw [encode, List.flatMap_cons, List.foldl_append, decoder_encodeChar, ← encode, ih]
    simp

theorem stretches_encode (s : List Char) : stretches (encode s) = s.map some := by
  rw [stretches, Decoder.start, decoder_encode, Decoder.finish]
  simp

theorem decode?_encode (s : List Char) : decode? (encode s) = some s := by
  rw [decode?, stretches_encode, List.mapM_map]
  exact (List.mapM_pure (m := Option)).trans (congrArg some (List.map_id s))

theorem decodeLossy_encode (s : List Char) : decodeLossy (encode s) = s := by
  rw [decodeLossy, stretches_encode, List.map_map]
  exact List.map_id s

/-! ## Bytes that stand alone -/

/-- A decoder that has read something before. -/
def Decoder.after (d : Decoder) (earlier : List (Option Char)) : Decoder :=
  { d with stretches := d.stretches ++ earlier }

theorem begin_after (earlier : List (Option Char)) (l : Lead) :
    Decoder.begin (ss ++ earlier) l = (Decoder.begin ss l).after earlier := by
  cases l <;> rfl

theorem step_after (d : Decoder) (earlier : List (Option Char)) (b : UInt8) :
    (d.after earlier).step b = (d.step b).after earlier := by
  obtain ⟨ss, _ | p⟩ := d
  · exact begin_after earlier (lead b)
  · rw [Decoder.after]
    by_cases h : p.low ≤ b ∧ b ≤ p.high
    · rw [step_begun h, step_begun h, begin_after]
    · rw [step_begun_of_not h, step_begun_of_not h, ← List.cons_append, begin_after]

theorem foldl_step_after (d : Decoder) (earlier : List (Option Char)) (bytes : List UInt8) :
    bytes.foldl Decoder.step (d.after earlier) = (bytes.foldl Decoder.step d).after earlier := by
  induction bytes generalizing d with
  | nil => rfl
  | cons b rest ih => rw [List.foldl_cons, List.foldl_cons, step_after, ih]

theorem finish_after (d : Decoder) (earlier : List (Option Char)) :
    (d.after earlier).finish = earlier.reverse ++ d.finish := by
  obtain ⟨ss, _ | p⟩ := d <;> simp [Decoder.after, Decoder.finish]

/-- No byte below 0x80 continues what has begun. -/
def Decoder.Sound (d : Decoder) : Prop :=
  ∀ p, d.begun = some p → 0x80 ≤ p.low

theorem low_of_lead (h : lead b = .begins p) : 0x80 ≤ p.low := by
  rw [lead] at h
  split_ifs at h <;> cases h <;> simp

theorem low_of_next {q : Begun} (h : p.next b = .begins q) : 0x80 ≤ q.low := by
  rw [Begun.next] at h
  split at h
  · cases h
  · cases h
    simp

theorem sound_begin {l : Lead} (hl : ∀ p, l = .begins p → 0x80 ≤ p.low) :
    (Decoder.begin ss l).Sound := by
  intro p hp
  cases l with
  | whole c => cases hp
  | begins q =>
      cases hp
      exact hl _ rfl
  | invalid => cases hp

theorem sound_step (d : Decoder) (b : UInt8) : (d.step b).Sound := by
  obtain ⟨ss, _ | p⟩ := d
  · exact sound_begin fun q => low_of_lead
  · by_cases h : p.low ≤ b ∧ b ≤ p.high
    · rw [step_begun h]
      exact sound_begin fun q => low_of_next
    · rw [step_begun_of_not h]
      exact sound_begin fun q => low_of_lead

theorem sound_foldl {d : Decoder} (hd : d.Sound) (bytes : List UInt8) :
    (bytes.foldl Decoder.step d).Sound := by
  induction bytes generalizing d with
  | nil => exact hd
  | cons b rest ih => exact ih (sound_step d b)

theorem sound_start : Decoder.start.Sound := by
  intro p hp
  cases hp

/-- An ASCII byte ends what has begun and is a character of its own. -/
theorem step_ascii {d : Decoder} (hd : d.Sound) (hb : b ≤ 0x7F) :
    d.step b = Decoder.start.after (some (Char.ofNat b.toNat) :: d.finish.reverse) := by
  have hlead : lead b = .whole (Char.ofNat b.toNat) := if_pos hb
  obtain ⟨ss, _ | p⟩ := d
  · simp [step_between, hlead, Decoder.begin, Decoder.start, Decoder.after, Decoder.finish]
  · have hout : ¬ (p.low ≤ b ∧ b ≤ p.high) := by
      have hp : 0x80 ≤ p.low := hd p rfl
      rw [UInt8.le_iff_toNat_le] at hp hb ⊢
      simp only [UInt8.reduceToNat] at hp hb
      omega
    rw [step_begun_of_not hout, hlead]
    simp [Decoder.begin, Decoder.start, Decoder.after, Decoder.finish]

/-- An ASCII byte is a character wherever it stands, and what is in front of it and what follows are
decoded by themselves. -/
theorem stretches_append_ascii (hb : b ≤ 0x7F) (front rest : List UInt8) :
    stretches (front ++ b :: rest) = stretches front ++ some (Char.ofNat b.toNat) :: stretches rest := by
  rw [stretches, List.foldl_append, List.foldl_cons, step_ascii (sound_foldl sound_start front) hb,
    foldl_step_after, finish_after]
  simp [stretches]

theorem decodeLossy_append_ascii (hb : b ≤ 0x7F) (front rest : List UInt8) :
    decodeLossy (front ++ b :: rest) =
      decodeLossy front ++ Char.ofNat b.toNat :: decodeLossy rest := by
  rw [decodeLossy, stretches_append_ascii hb, List.map_append, List.map_cons]
  rfl

end DemoScaffold.Text.Utf8
