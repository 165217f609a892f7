import DemoScaffold.Number.Binary

/-!
# Fixed places

Decimals with a fixed number of places: a scaled natural number is written with its point, and a
finite binary value is first rounded to the places asked for.
-/

namespace DemoScaffold.Number

def decimalDigits (n : Nat) : List Char :=
  Nat.toDigits 10 n

/-- The last `width` decimal digits of a number, zeros in front if it is short. -/
def paddedDigits : (width : Nat) → Nat → List Char
  | 0, _ => []
  | width + 1, n => paddedDigits width (n / 10) ++ [Nat.digitChar (n % 10)]

/-- `scaled / 10 ^ places` with exactly that many places. -/
def fixedDigits (places scaled : Nat) : List Char :=
  decimalDigits (scaled / Nat.pow 10 places) ++
    '.' :: paddedDigits places (scaled % Nat.pow 10 places)

/-- `significand · 2 ^ exponent` in units of `10 ^ -places`, rounded half to even. -/
def scaledNearest (places significand : Nat) (exponent : Int) : Nat :=
  roundHalfEven (significand * Nat.pow 10 places * Nat.pow 2 exponent.toNat)
    (Nat.pow 2 (-exponent).toNat)

end DemoScaffold.Number
