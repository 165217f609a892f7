import DemoScaffold.Number.Rounding

/-!
# Binary floating-point formats

The interchange formats with a sign bit, a biased exponent and a fraction: decoding a bit pattern
into sign, significand and power of two, and the pattern nearest to a quotient of natural numbers.
-/

namespace DemoScaffold.Number

/-- A binary format: how many bits its significands have, the exponent of its least unit and the
pattern of positive infinity. -/
structure BinaryFormat where
  precision : Nat
  leastExponent : Int
  infinity : Nat
deriving Repr, DecidableEq

def binary32 : BinaryFormat := ⟨24, -149, 0x7F800000⟩

def binary64 : BinaryFormat := ⟨53, -1074, 0x7FF0000000000000⟩

/-- What a bit pattern stands for; a finite one for `± significand · 2 ^ exponent`. -/
inductive Decoded where
  | finite (negative : Bool) (significand : Nat) (exponent : Int)
  | infinite (negative : Bool)
  | nan
deriving Repr, DecidableEq

namespace BinaryFormat

variable (f : BinaryFormat)

def fractionBits : Nat := f.precision - 1

def signWeight : Nat := f.infinity + Nat.pow 2 f.fractionBits

def decode (bits : Nat) : Decoded :=
  let negative := f.signWeight ≤ bits
  let magnitude := bits % f.signWeight
  if f.infinity < magnitude then .nan
  else if magnitude = f.infinity then .infinite negative
  else
    let fraction := magnitude % Nat.pow 2 f.fractionBits
    match magnitude / Nat.pow 2 f.fractionBits with
    | 0 => .finite negative fraction f.leastExponent
    | e + 1 => .finite negative (fraction + Nat.pow 2 f.fractionBits) (f.leastExponent + e)

/-- The pattern of the value nearest to `num / den`, a half to the even significand, and infinity
for a quotient too large. -/
def nearest (num den : Nat) : Nat :=
  if num = 0 then 0
  else
    let guess := (num.log2 : Int) - den.log2
    let log :=
      if num * Nat.pow 2 (-guess).toNat < den * Nat.pow 2 guess.toNat then guess - 1 else guess
    let e := max (log - f.fractionBits) f.leastExponent
    let m := roundHalfEven (num * Nat.pow 2 (-e).toNat) (den * Nat.pow 2 e.toNat)
    min ((e - f.leastExponent).toNat * Nat.pow 2 f.fractionBits + m) f.infinity

/-- The pattern nearest to `m · 2 ^ e / den`. -/
def nearestScaled (m : Nat) (e : Int) (den : Nat) : Nat :=
  f.nearest (m * Nat.pow 2 e.toNat) (den * Nat.pow 2 (-e).toNat)

/-- The product of two positive patterns, rounded. -/
def product (a b : Nat) : Nat :=
  match f.decode a, f.decode b with
  | .finite _ m e, .finite _ n k => f.nearestScaled (m * n) (e + k) 1
  | _, _ => f.infinity

/-- The quotient of two positive patterns, rounded; the second one is not zero. -/
def quotient (a b : Nat) : Nat :=
  match f.decode a, f.decode b with
  | .finite _ m e, .finite _ n k => f.nearestScaled m (e - k) n
  | _, _ => 0

end BinaryFormat

end DemoScaffold.Number
