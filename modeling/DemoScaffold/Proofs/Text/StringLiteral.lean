import DemoScaffold.Text.Utf8
import Mathlib.Tactic.SplitIfs

/-!
# String literals

How C++ reads an ordinary string literal behind its opening quote: a character stands for its bytes in
UTF-8, an escape sequence for what it names, and the first quote that is not escaped closes the literal.
A literal ends on the line that it begins on. An escape sequence has fewer bytes than characters, so a
literal says the text that is written in it only if it has none (`read_eq_encode_iff`).
-/

namespace DemoScaffold.Text.StringLiteral

/-! ## Escape sequences -/

/-- The character that a letter or a mark names behind a backslash. -/
def simple? (c : Char) : Option Char :=
  if c = '\'' ∨ c = '"' ∨ c = '?' ∨ c = '\\' then some c
  else if c = 'a' then some '\x07'
  else if c = 'b' then some '\x08'
  else if c = 'f' then some '\x0c'
  else if c = 'n' then some '\n'
  else if c = 'r' then some '\r'
  else if c = 't' then some '\t'
  else if c = 'v' then some '\x0b'
  else none

def digit? (base : Nat) (c : Char) : Option Nat :=
  let value :=
    if '0' ≤ c ∧ c ≤ '9' then c.toNat - '0'.toNat
    else if 'a' ≤ c ∧ c ≤ 'f' then c.toNat - 'a'.toNat + 10
    else if 'A' ≤ c ∧ c ≤ 'F' then c.toNat - 'A'.toNat + 10
    else base
  if value < base then some value else none

/-- The number that digits write; there must be one. -/
def number? (base : Nat) (digits : List Char) : Option Nat :=
  if digits = [] then none
  else digits.foldlM (fun n c => (digit? base c).map (n * base + ·)) 0

/-- A number that is a byte. -/
def byte? (n : Nat) : Option (List UInt8) :=
  if n < 256 then some [UInt8.ofNat n] else none

/-- A number that is a character. -/
def character? (n : Nat) : Option (List UInt8) :=
  if n.isValidChar then some (String.utf8EncodeChar (Char.ofNat n)) else none

/-- The bytes that an escape sequence stands for, from what is behind its backslash. -/
def escape? : List Char → Option (List UInt8)
  | 'x' :: digits => (number? 16 digits).bind byte?
  | 'u' :: digits => if digits.length = 4 then (number? 16 digits).bind character? else none
  | 'U' :: digits => if digits.length = 8 then (number? 16 digits).bind character? else none
  | [c] =>
    match simple? c with
    | some d => some (String.utf8EncodeChar d)
    | none => (number? 8 [c]).bind byte?
  | digits => (number? 8 digits).bind byte?

/-- Whether an escape sequence goes on: it is as long as it can be. -/
def goesOn : List Char → Char → Bool
  | [], _ => true
  | 'x' :: _, c => (digit? 16 c).isSome
  | 'u' :: digits, c => (digit? 16 c).isSome && digits.length < 4
  | 'U' :: digits, c => (digit? 16 c).isSome && digits.length < 8
  | d :: digits, c => (digit? 8 d).isSome && (digit? 8 c).isSome && digits.length < 2

/-! ## Literals -/

/-- The bytes of the escape sequence that has been read, if there is one. -/
def settled? : Option (List Char) → Option (List UInt8)
  | none => some []
  | some escape => escape? escape

/-- The bytes of a literal and what is behind its closing quote. What has been read of an escape sequence
since its backslash is kept until the sequence is over. -/
def read : Option (List Char) → List Char → Option (List UInt8 × List Char)
  | _, [] => none
  | escape, c :: rest =>
    if c = '\n' ∨ c = '\r' then none
    else if escape.any (goesOn · c) then read (escape.map (· ++ [c])) rest
    else do
      let before ← settled? escape
      if c = '"' then return (before, rest)
      else if c = '\\' then
        let (value, left) ← read (some []) rest
        return (before ++ value, left)
      else
        let (value, left) ← read none rest
        return (before ++ String.utf8EncodeChar c ++ value, left)

/-- The characters that stand for themselves in a literal. -/
def IsPlain (c : Char) : Prop :=
  c ≠ '"' ∧ c ≠ '\\' ∧ c ≠ '\n' ∧ c ≠ '\r'

instance (c : Char) : Decidable (IsPlain c) := inferInstanceAs (Decidable (_ ∧ _))

variable {cs d left : List Char} {c : Char} {escape : Option (List Char)} {value : List UInt8}

theorem read_plain (hd : ∀ c ∈ d, IsPlain c) (tail : List Char) :
    read none (d ++ '"' :: tail) = some (Utf8.encode d, tail) := by
  induction d with
  | nil => rfl
  | cons c rest ih =>
      obtain ⟨⟨hquote, hbackslash, hfeed, hreturn⟩, hrest⟩ := List.forall_mem_cons.mp hd
      rw [List.cons_append, read, if_neg (by simp [hfeed, hreturn]), if_neg (by simp)]
      simp [settled?, hquote, hbackslash, ih hrest, Utf8.encode]

/-! ## Lengths -/

theorem length_byte? {n : Nat} {bytes : List UInt8} (h : byte? n = some bytes) : bytes.length = 1 := by
  obtain ⟨-, hbytes⟩ := Option.ite_none_right_eq_some.mp h
  rw [← Option.some.inj hbytes, List.length_singleton]

theorem length_character? {n : Nat} {bytes : List UInt8} (h : character? n = some bytes) :
    bytes.length ≤ 4 := by
  obtain ⟨-, hbytes⟩ := Option.ite_none_right_eq_some.mp h
  rw [← Option.some.inj hbytes, String.length_utf8EncodeChar]
  exact Char.utf8Size_le_four _

theorem length_number_byte? {base : Nat} {digits : List Char} {bytes : List UInt8}
    (h : (number? base digits).bind byte? = some bytes) : bytes.length ≤ digits.length := by
  obtain ⟨n, hn, hbytes⟩ := Option.bind_eq_some_iff.mp h
  obtain ⟨hdigits, -⟩ := Option.ite_none_left_eq_some.mp hn
  rw [length_byte? hbytes]
  exact List.length_pos_iff.mpr hdigits

theorem length_simple? {d : Char} (h : simple? c = some d) : (String.utf8EncodeChar d).length = 1 := by
  rw [simple?] at h
  split_ifs at h with hself
  · cases h
    rcases hself with rfl | rfl | rfl | rfl <;> rfl
  all_goals
    cases h
    rfl

theorem length_escape? {b : List Char} {bytes : List UInt8} (h : escape? b = some bytes) :
    bytes.length ≤ b.length := by
  rw [escape?.eq_def] at h
  split at h
  · exact Nat.le_succ_of_le (length_number_byte? h)
  · obtain ⟨hlength, h⟩ := Option.ite_none_right_eq_some.mp h
    obtain ⟨n, -, hbytes⟩ := Option.bind_eq_some_iff.mp h
    have := length_character? hbytes
    rw [List.length_cons]
    omega
  · obtain ⟨hlength, h⟩ := Option.ite_none_right_eq_some.mp h
    obtain ⟨n, -, hbytes⟩ := Option.bind_eq_some_iff.mp h
    have := length_character? hbytes
    rw [List.length_cons]
    omega
  · split at h
    · rename_i d hd
      cases h
      exact Nat.le_of_eq (length_simple? hd)
    · exact length_number_byte? h
  · exact length_number_byte? h

/-- How many bytes there can be in what has been read of an escape sequence. -/
def owed : Option (List Char) → Nat
  | none => 0
  | some escape => escape.length

theorem length_settled? (h : settled? escape = some value) : value.length ≤ owed escape := by
  cases escape with
  | none =>
      cases h
      exact Nat.le_refl _
  | some b => exact length_escape? h

/-- What is known of the characters of a literal with a value: they are on one line, and there are no
fewer bytes in them than in the value, more unless they stand for themselves. -/
structure Spells (escape : Option (List Char)) (chars : List Char) (value : List UInt8) : Prop where
  oneLine : ∀ c ∈ chars, c ≠ '\n' ∧ c ≠ '\r'
  length : value.length ≤ owed escape + (Utf8.encode chars).length
  plain : escape = none →
    (∀ c ∈ chars, c ≠ '"' ∧ c ≠ '\\') ∨ value.length < (Utf8.encode chars).length

theorem length_encode_cons (c : Char) (s : List Char) :
    (Utf8.encode (c :: s)).length = c.utf8Size + (Utf8.encode s).length := by
  simp [Utf8.encode, String.length_utf8EncodeChar]

/-! ## What a literal spells -/

variable {chars b : List Char} {bytes : List UInt8}

/-- One more character of an escape sequence is owed one byte more. -/
theorem Spells.goesOn (h : Spells (some (b ++ [c])) chars value) (hline : c ≠ '\n' ∧ c ≠ '\r') :
    Spells (some b) (c :: chars) value := by
  have hsize := c.utf8Size_pos
  have hlength := h.length
  refine ⟨List.forall_mem_cons.mpr ⟨hline, h.oneLine⟩, ?_, nofun⟩
  rw [length_encode_cons]
  simp only [owed, List.length_append, List.length_singleton] at hlength ⊢
  omega

theorem Spells.closed (h : settled? escape = some value) : Spells escape [] value :=
  ⟨by simp, Nat.le_add_right_of_le (length_settled? h), fun _ => .inl (by simp)⟩

/-- A backslash has no byte of its own in the value: this is where values become shorter. -/
theorem Spells.backslash (hbefore : settled? escape = some bytes) (h : Spells (some []) chars value) :
    Spells escape ('\\' :: chars) (bytes ++ value) := by
  have hsize := Char.utf8Size_pos '\\'
  have hfirst := length_settled? hbefore
  have hlength := h.length
  simp only [owed, List.length_nil] at hlength
  refine ⟨List.forall_mem_cons.mpr ⟨by decide, h.oneLine⟩, ?_, ?_⟩
  · rw [List.length_append, length_encode_cons]
    omega
  · rintro rfl
    right
    rw [List.length_append, length_encode_cons]
    simp only [owed] at hfirst
    omega

theorem Spells.character (hbefore : settled? escape = some bytes) (hline : c ≠ '\n' ∧ c ≠ '\r')
    (hmarks : c ≠ '"' ∧ c ≠ '\\') (h : Spells none chars value) :
    Spells escape (c :: chars) (bytes ++ String.utf8EncodeChar c ++ value) := by
  have hfirst := length_settled? hbefore
  have hlength := h.length
  simp only [owed] at hlength
  refine ⟨List.forall_mem_cons.mpr ⟨hline, h.oneLine⟩, ?_, ?_⟩
  · rw [List.length_append, List.length_append, length_encode_cons, String.length_utf8EncodeChar]
    omega
  · rintro rfl
    refine (h.plain rfl).imp (fun hchars => List.forall_mem_cons.mpr ⟨hmarks, hchars⟩) fun hless => ?_
    rw [List.length_append, List.length_append, length_encode_cons, String.length_utf8EncodeChar]
    simp only [owed] at hfirst
    omega

/-- What a character of a literal does: it belongs to the escape sequence before it, or that is over and
the character ends the literal, begins another escape sequence or stands for itself. -/
theorem read_cases {rest : List Char} (h : read escape (c :: rest) = some (value, left)) :
    (c ≠ '\n' ∧ c ≠ '\r') ∧
      ((∃ b, escape = some b ∧ read (some (b ++ [c])) rest = some (value, left)) ∨
        ∃ before, settled? escape = some before ∧
          (c = '"' ∧ value = before ∧ left = rest ∨
            c = '\\' ∧ (∃ more, read (some []) rest = some (more, left) ∧ value = before ++ more) ∨
            (c ≠ '"' ∧ c ≠ '\\') ∧ ∃ more, read none rest = some (more, left) ∧
              value = before ++ String.utf8EncodeChar c ++ more)) := by
  rw [read] at h
  obtain ⟨hline, h⟩ := Option.ite_none_left_eq_some.mp h
  refine ⟨not_or.mp hline, ?_⟩
  by_cases hgoes : escape.any (goesOn · c) = true
  · rw [if_pos hgoes] at h
    obtain ⟨b, rfl⟩ : ∃ b, escape = some b := by
      cases escape with
      | none => cases hgoes
      | some b => exact ⟨b, rfl⟩
    exact .inl ⟨b, rfl, h⟩
  · rw [if_neg hgoes] at h
    obtain ⟨before, hbefore, h⟩ := Option.bind_eq_some_iff.mp h
    refine .inr ⟨before, hbefore, ?_⟩
    split_ifs at h with hquote hbackslash
    · cases h
      exact .inl ⟨hquote, rfl, rfl⟩
    · obtain ⟨⟨more, left'⟩, hmore, h⟩ := Option.bind_eq_some_iff.mp h
      cases h
      exact .inr (.inl ⟨hbackslash, more, hmore, rfl⟩)
    · obtain ⟨⟨more, left'⟩, hmore, h⟩ := Option.bind_eq_some_iff.mp h
      cases h
      exact .inr (.inr ⟨⟨hquote, hbackslash⟩, more, hmore, rfl⟩)

theorem spells_of_read (h : read escape cs = some (value, left)) :
    ∃ chars, cs = chars ++ '"' :: left ∧ Spells escape chars value := by
  induction cs generalizing escape value with
  | nil => cases h
  | cons c rest ih =>
      obtain ⟨hline, ⟨b, rfl, hmore⟩ | ⟨bytes, hbefore, hcase⟩⟩ := read_cases h
      · obtain ⟨chars, rfl, hspells⟩ := ih hmore
        exact ⟨c :: chars, rfl, hspells.goesOn hline⟩
      · rcases hcase with ⟨rfl, rfl, rfl⟩ | ⟨rfl, more, hmore, rfl⟩ | ⟨hmarks, more, hmore, rfl⟩
        · exact ⟨[], rfl, .closed hbefore⟩
        · obtain ⟨chars, rfl, hspells⟩ := ih hmore
          exact ⟨'\\' :: chars, rfl, hspells.backslash hbefore⟩
        · obtain ⟨chars, rfl, hspells⟩ := ih hmore
          exact ⟨c :: chars, rfl, hspells.character hbefore hline hmarks⟩

/-! ## Literals that say what is written in them -/

theorem encode_append (s t : List Char) : Utf8.encode (s ++ t) = Utf8.encode s ++ Utf8.encode t :=
  List.flatMap_append

/-- A text with a quote behind it, and no other one up to the end of the line, is what stands before a
quote on the line, if that has no fewer bytes. -/
theorem chars_eq_of_length {line below : List Char} (hquote : '"' ∉ line)
    (hchars : ∀ c ∈ chars, c ≠ '\n' ∧ c ≠ '\r')
    (hlength : (Utf8.encode d).length ≤ (Utf8.encode chars).length)
    (h : d ++ '"' :: (line ++ '\n' :: below) = chars ++ '"' :: left) : d = chars := by
  rcases List.append_eq_append_iff.mp h with ⟨more, rfl, hmore⟩ | ⟨more, rfl, hmore⟩
  -- Characters behind the text would reach over its quote to another one, past the end of the line.
  · cases more with
    | nil => rw [List.append_nil]
    | cons c more =>
        obtain ⟨-, hmore⟩ := List.cons.inj hmore
        rcases List.append_eq_append_iff.mp hmore with ⟨between, rfl, hend⟩ | ⟨between, rfl, hend⟩
        · cases between with
          | nil => simp at hend
          | cons x between =>
              obtain ⟨rfl, -⟩ := List.cons.inj hend
              exact absurd rfl (hchars '\n' (by simp)).1
        · cases between with
          | nil => simp at hend
          | cons x between =>
              obtain ⟨rfl, -⟩ := List.cons.inj hend
              exact absurd (by simp) hquote
  -- Characters that end within the text have fewer bytes.
  · cases more with
    | nil => rw [List.append_nil]
    | cons c more =>
        rw [encode_append, List.length_append, length_encode_cons] at hlength
        have := c.utf8Size_pos
        omega

/-- A literal with a text between its quotes has the text as its value if and only if every character of it
stands for itself. The line may go on behind the literal, but without quotes. -/
theorem read_eq_encode_iff {line below : List Char} (hquote : '"' ∉ line) :
    (∃ left, read none (d ++ '"' :: (line ++ '\n' :: below)) = some (Utf8.encode d, left)) ↔
      ∀ c ∈ d, IsPlain c := by
  constructor
  · rintro ⟨left, h⟩
    obtain ⟨chars, hchars, hline, hlength, hplain⟩ := spells_of_read h
    simp only [owed, Nat.zero_add] at hlength
    obtain rfl := chars_eq_of_length hquote hline hlength hchars
    rcases hplain rfl with hplain | hless
    · exact fun c hc => ⟨(hplain c hc).1, (hplain c hc).2, hline c hc⟩
    · exact absurd hless (Nat.lt_irrefl _)
  · intro hd
    exact ⟨_, read_plain hd _⟩

/-- Quotes are written with backslashes, and octal and hexadecimal digits end where they can. -/
example : read none "Fog \\\"2\\\" \\1012\\x41\"sv;".toList =
    some (Utf8.encode "Fog \"2\" A2A".toList, "sv;".toList) := by
  decide +kernel

end DemoScaffold.Text.StringLiteral
