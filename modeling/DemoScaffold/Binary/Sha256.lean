/-!
# SHA-256

The digest of a sequence of bytes. Bytes are taken in one after the other; each full block of 64 is
compressed into a chain of eight words.
-/

namespace DemoScaffold.Sha256

/-! ## Words -/

/-- Rotates a word to the right, by less than its width. -/
def rotate (x n : UInt32) : UInt32 :=
  (x >>> n) ||| (x <<< (32 - n))

/-- The mixing of the newer words of the schedule. -/
def smallSigma1 (x : UInt32) : UInt32 :=
  rotate x 17 ^^^ rotate x 19 ^^^ (x >>> 10)

/-- The mixing of the older words of the schedule. -/
def smallSigma0 (x : UInt32) : UInt32 :=
  rotate x 7 ^^^ rotate x 18 ^^^ (x >>> 3)

/-- The mixing of the chain's first word. -/
def bigSigma0 (x : UInt32) : UInt32 :=
  rotate x 2 ^^^ rotate x 13 ^^^ rotate x 22

/-- The mixing of the chain's fifth word. -/
def bigSigma1 (x : UInt32) : UInt32 :=
  rotate x 6 ^^^ rotate x 11 ^^^ rotate x 25

/-- Each bit of `y` or of `z`, as the bit of `x` says. -/
def choose (x y z : UInt32) : UInt32 :=
  (x &&& y) ^^^ (~~~x &&& z)

/-- Each bit as in most of the three words. -/
def majority (x y z : UInt32) : UInt32 :=
  (x &&& y) ^^^ (x &&& z) ^^^ (y &&& z)

/-- The constants of the rounds. -/
def roundConstants : List UInt32 := [
  0x428a2f98, 0x71374491, 0xb5c0fbcf, 0xe9b5dba5, 0x3956c25b, 0x59f111f1, 0x923f82a4, 0xab1c5ed5,
  0xd807aa98, 0x12835b01, 0x243185be, 0x550c7dc3, 0x72be5d74, 0x80deb1fe, 0x9bdc06a7, 0xc19bf174,
  0xe49b69c1, 0xefbe4786, 0x0fc19dc6, 0x240ca1cc, 0x2de92c6f, 0x4a7484aa, 0x5cb0a9dc, 0x76f988da,
  0x983e5152, 0xa831c66d, 0xb00327c8, 0xbf597fc7, 0xc6e00bf3, 0xd5a79147, 0x06ca6351, 0x14292967,
  0x27b70a85, 0x2e1b2138, 0x4d2c6dfc, 0x53380d13, 0x650a7354, 0x766a0abb, 0x81c2c92e, 0x92722c85,
  0xa2bfe8a1, 0xa81a664b, 0xc24b8b70, 0xc76c51a3, 0xd192e819, 0xd6990624, 0xf40e3585, 0x106aa070,
  0x19a4c116, 0x1e376c08, 0x2748774c, 0x34b0bcb5, 0x391c0cb3, 0x4ed8aa4a, 0x5b9cca4f, 0x682e6ff3,
  0x748f82ee, 0x78a5636f, 0x84c87814, 0x8cc70208, 0x90befffa, 0xa4506ceb, 0xbef9a3f7, 0xc67178f2]

/-! ## Compression -/

/-- The eight words that the blocks are compressed into. -/
structure Chain where
  a : UInt32
  b : UInt32
  c : UInt32
  d : UInt32
  e : UInt32
  f : UInt32
  g : UInt32
  h : UInt32
deriving DecidableEq, Repr

namespace Chain

def start : Chain :=
  ⟨0x6a09e667, 0xbb67ae85, 0x3c6ef372, 0xa54ff53a, 0x510e527f, 0x9b05688c, 0x1f83d9ab, 0x5be0cd19⟩

def words (s : Chain) : List UInt32 :=
  [s.a, s.b, s.c, s.d, s.e, s.f, s.g, s.h]

def round (s : Chain) (constant word : UInt32) : Chain :=
  let t := s.h + bigSigma1 s.e + choose s.e s.f s.g + constant + word
  ⟨t + bigSigma0 s.a + majority s.a s.b s.c, s.a, s.b, s.c, s.d + t, s.e, s.f, s.g⟩

def add (s t : Chain) : Chain :=
  ⟨s.a + t.a, s.b + t.b, s.c + t.c, s.d + t.d, s.e + t.e, s.f + t.f, s.g + t.g, s.h + t.h⟩

end Chain

/-- The word of four bytes, the last one first. -/
def wordOf (b₃ b₂ b₁ b₀ : UInt8) : UInt32 :=
  (b₀.toUInt32 <<< 24) ||| (b₁.toUInt32 <<< 16) ||| (b₂.toUInt32 <<< 8) ||| b₃.toUInt32

/-- The words of a block given from its last byte to its first, from the last to the first. -/
def reversedWords : List UInt8 → List UInt32
  | b₃ :: b₂ :: b₁ :: b₀ :: rest => wordOf b₃ b₂ b₁ b₀ :: reversedWords rest
  | _ => []

/-- Puts `n` words more in front of a schedule, which has its newest word first. -/
def extendSchedule : (n : Nat) → List UInt32 → List UInt32
  | 0, w => w
  | n + 1, w =>
    let next := smallSigma1 (w.getD 1 0) + w.getD 6 0 + smallSigma0 (w.getD 14 0) + w.getD 15 0
    extendSchedule n (next :: w)

/-- Compresses a block, given from its last byte to its first. -/
def compress (s : Chain) (reversedBlock : List UInt8) : Chain :=
  let schedule := (extendSchedule 48 (reversedWords reversedBlock)).reverse
  s.add ((roundConstants.zip schedule).foldl (fun t (constant, word) => t.round constant word) s)

/-! ## Taking in bytes -/

/-- What has been taken in: the chain of the full blocks, the bytes since then with the last one
first, and how many more complete the block. -/
structure Absorber where
  chain : Chain
  pending : List UInt8
  missing : Nat
deriving DecidableEq, Repr

namespace Absorber

def start : Absorber := ⟨.start, [], 64⟩

def push (s : Absorber) (b : UInt8) : Absorber :=
  if s.missing = 1 then ⟨compress s.chain (b :: s.pending), [], 64⟩
  else ⟨s.chain, b :: s.pending, s.missing - 1⟩

end Absorber

/-- What is appended to a message of `length` bytes: a mark, zeros, and the number of its bits in
eight bytes, so that the last block is full. -/
def padding (length : Nat) : List UInt8 :=
  let zeros : List UInt8 := List.replicate ((119 - length % 64) % 64) 0
  let bits := [56, 48, 40, 32, 24, 16, 8, 0].map fun shift => UInt8.ofNat ((8 * length) >>> shift)
  0x80 :: zeros ++ bits

def digest (bytes : List UInt8) : Chain :=
  ((padding bytes.length).foldl Absorber.push (bytes.foldl Absorber.push .start)).chain

/-- A word in eight lower-case hexadecimal digits. -/
def wordDigits (w : UInt32) : List Char :=
  [28, 24, 20, 16, 12, 8, 4, 0].map fun shift => Nat.digitChar ((w.toNat >>> shift) % 16)

def hexDigest (bytes : List UInt8) : String :=
  String.ofList ((digest bytes).words.flatMap wordDigits)

end DemoScaffold.Sha256
