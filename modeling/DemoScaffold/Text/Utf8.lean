/-!
# UTF-8

Encoding and decoding. The decoder reads one byte at a time and names each stretch of the input
once: a character, or a stretch that no character can continue (a maximal invalid subpart). Strict
decoding refuses an input with such a stretch; lossy decoding writes U+FFFD for each.
-/

namespace DemoScaffold.Text.Utf8

def encode (s : List Char) : List UInt8 :=
  s.flatMap String.utf8EncodeChar

/-- A character that has begun: how many bytes follow the next one, the range of the next one, and
the bits read so far. -/
structure Begun where
  more : Nat
  low : UInt8 := 0x80
  high : UInt8 := 0xBF
  bits : Nat
deriving Repr, DecidableEq

/-- What a byte between two characters is. -/
inductive Lead where
  | whole (c : Char)
  | begins (b : Begun)
  | invalid
deriving Repr, DecidableEq

/-- The first bytes of well-formed characters and the ranges of the byte after them. -/
def lead (b : UInt8) : Lead :=
  if b ≤ 0x7F then .whole (Char.ofNat b.toNat)
  else if 0xC2 ≤ b ∧ b ≤ 0xDF then .begins { more := 0, bits := b.toNat - 0xC0 }
  else if b = 0xE0 then .begins { more := 1, low := 0xA0, bits := 0 }
  else if b = 0xED then .begins { more := 1, high := 0x9F, bits := 0xD }
  else if 0xE1 ≤ b ∧ b ≤ 0xEF then .begins { more := 1, bits := b.toNat - 0xE0 }
  else if b = 0xF0 then .begins { more := 2, low := 0x90, bits := 0 }
  else if b = 0xF4 then .begins { more := 2, high := 0x8F, bits := 4 }
  else if 0xF1 ≤ b ∧ b ≤ 0xF3 then .begins { more := 2, bits := b.toNat - 0xF0 }
  else .invalid

/-- A byte in the range asked for: the character it completes, or what is still to come. -/
def Begun.next (p : Begun) (b : UInt8) : Lead :=
  let bits := p.bits * 64 + (b.toNat - 0x80)
  match p.more with
  | 0 => .whole (Char.ofNat bits)
  | n + 1 => .begins { more := n, bits }

/-- A decoder between two bytes: the stretches so far, the last one first, and the character that
has begun. A stretch is `some c` for a character and `none` for a maximal invalid subpart. -/
structure Decoder where
  stretches : List (Option Char)
  begun : Option Begun
deriving Repr, DecidableEq

namespace Decoder

def start : Decoder := ⟨[], none⟩

/-- A byte between two characters. -/
def begin (stretches : List (Option Char)) : Lead → Decoder
  | .whole c => ⟨some c :: stretches, none⟩
  | .begins p => ⟨stretches, some p⟩
  | .invalid => ⟨none :: stretches, none⟩

/-- One byte more. A byte that cannot continue the character ends its stretch and begins anew. -/
def step (d : Decoder) (b : UInt8) : Decoder :=
  match d.begun with
  | none => begin d.stretches (lead b)
  | some p =>
    if p.low ≤ b ∧ b ≤ p.high then begin d.stretches (p.next b)
    else begin (none :: d.stretches) (lead b)

/-- All stretches at the end of the input, in order. -/
def finish (d : Decoder) : List (Option Char) :=
  match d.begun with
  | none => d.stretches.reverse
  | some _ => (none :: d.stretches).reverse

end Decoder

/-- The stretches of an input. -/
def stretches (bytes : List UInt8) : List (Option Char) :=
  (bytes.foldl Decoder.step .start).finish

/-- The text that the bytes encode, if they are well-formed. -/
def decode? (bytes : List UInt8) : Option (List Char) :=
  (stretches bytes).mapM id

/-- The text of the bytes with U+FFFD for each maximal invalid subpart. -/
def decodeLossy (bytes : List UInt8) : List Char :=
  (stretches bytes).map (·.getD '\uFFFD')

end DemoScaffold.Text.Utf8
