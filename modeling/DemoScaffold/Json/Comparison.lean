import DemoScaffold.Json.Number

/-!
# Comparing numbers

Two numbers are compared by their exact values, whatever their sorts. A text that is a number from
its start to its end is compared as that number. Equality is finer: an integer and a double are
never equal.
-/

namespace DemoScaffold.JsonNumber

/-- A number as a quotient of an integer and a power of two. -/
def scaled : JsonNumber → Int × Nat
  | .natural n => (n, 0)
  | .negative n => (-n, 0)
  | .double isNegative bits =>
    match Number.binary64.decode bits with
    | .finite _ m e =>
      let size : Int := (m * Nat.pow 2 e.toNat : Nat)
      (if isNegative then -size else size, (-e).toNat)
    | _ => (0, 0)

def order (x y : JsonNumber) : Ordering :=
  let (a, i) := x.scaled
  let (b, j) := y.scaled
  compare (a * Nat.pow 2 j) (b * Nat.pow 2 i)

/-- Whether two numbers are of one sort and equal. -/
def same : JsonNumber → JsonNumber → Bool
  | .natural m, .natural n => m == n
  | .negative m, .negative n => m == n
  | .double b m, .double c n => m == n && (b == c || m == 0)
  | _, _ => false

/-- The sign and the pattern of the double nearest to a number. -/
def nearestDouble : JsonNumber → Bool × Nat
  | .natural n => (false, Number.binary64.nearest n 1)
  | .negative n => (true, Number.binary64.nearest n 1)
  | .double isNegative bits => (isNegative, bits)

/-- The number that a text is as a whole. -/
def ofText? (s : String) : Option JsonNumber :=
  match Json.readNumberText .eofInValue s.toList with
  | .ok t => if t.length = s.toList.length then t.value.toOption else none
  | .error _ => none

/-- The order of a number and a text that is a number. -/
def orderWithText? (n : JsonNumber) (s : String) : Option Ordering :=
  (ofText? s).map n.order

/-- Whether the double nearest to a number is neither zero nor subnormal. -/
def isNormal (n : JsonNumber) : Bool :=
  Nat.pow 2 Number.binary64.fractionBits ≤ n.nearestDouble.2

end DemoScaffold.JsonNumber
