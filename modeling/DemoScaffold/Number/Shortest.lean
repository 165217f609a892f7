import DemoScaffold.Number.Fixed

/-!
# Shortest decimal of a double

The decimal with the fewest digits among those that read back as the same double, and of several
the nearest; and the text that messages show for it.
-/

namespace DemoScaffold.Number

structure Ratio where
  num : Nat
  den : Nat
deriving Repr, DecidableEq

namespace Ratio

def ofBinary (m : Nat) (e : Int) : Ratio :=
  ⟨m * Nat.pow 2 e.toNat, Nat.pow 2 (-e).toNat⟩

/-- The quotient divided by `10 ^ k`. -/
def unscale (q : Ratio) (k : Int) : Ratio :=
  ⟨q.num * Nat.pow 10 (-k).toNat, q.den * Nat.pow 10 k.toNat⟩

def leadingExponent (q : Ratio) : Int :=
  let guess : Int := (decimalDigits q.num).length - (decimalDigits q.den).length
  let scaled := q.unscale guess
  if scaled.num < scaled.den then guess - 1 else guess

end Ratio

/-- The numbers that read back as a double: those between two quotients, the ends included if
`closed`. -/
structure ReadingInterval where
  low : Ratio
  high : Ratio
  closed : Bool
deriving Repr

namespace ReadingInterval

/-- The interval of `m · 2 ^ e`: halfway to either neighbour, the lower one being half as far off
where the exponent changes. -/
def ofBinary (m : Nat) (e : Int) : ReadingInterval :=
  let below := if m = Nat.pow 2 52 ∧ binary64.leastExponent < e then 1 else 2
  { low := .ofBinary (4 * m - below) (e - 2)
    high := .ofBinary (4 * m + 2) (e - 2)
    closed := m % 2 = 0 }

/-- Whether `d · 10 ^ k` is in the interval. -/
def holds (i : ReadingInterval) (d : Nat) (k : Int) : Bool :=
  let low := i.low.unscale k
  let high := i.high.unscale k
  if i.closed then low.num ≤ d * low.den && d * high.den ≤ high.num
  else low.num < d * low.den && d * high.den < high.num

end ReadingInterval

/-- The digits and the power of ten of the shortest decimal of `m · 2 ^ e`, tried with `digits`
digits and then with more, `left` times more at most. -/
def shortestFrom (m : Nat) (e : Int) (digits : Nat) : (left : Nat) → Nat × Int
  | 0 => (m, 0)
  | left + 1 =>
    let q := Ratio.ofBinary m e
    let i := ReadingInterval.ofBinary m e
    let k := q.leadingExponent - digits + 1
    let s := q.unscale k
    let d := s.num / s.den
    let nearer := roundHalfEven s.num s.den
    let farther := if nearer = d then d + 1 else d
    if i.holds nearer k then (nearer, k)
    else if i.holds farther k then (farther, k)
    else shortestFrom m e (digits + 1) left

/-- The shortest decimal of `m · 2 ^ e`; seventeen digits always suffice. -/
def shortest (m : Nat) (e : Int) : Nat × Int :=
  shortestFrom m e 1 17

/-- A positive decimal `d · 10 ^ k` as messages show it: positional with a point for leading
exponents from -5 to 15, scientific with a signed exponent otherwise. -/
def decimalText (d : Nat) (k : Int) : List Char :=
  let all := decimalDigits d
  let digits := (all.reverse.dropWhile (· == '0')).reverse
  let leading := k + all.length - 1
  if -5 ≤ leading ∧ leading < 0 then
    '0' :: '.' :: List.replicate (-leading - 1).toNat '0' ++ digits
  else if 0 ≤ leading ∧ leading ≤ 15 then
    let whole := leading.toNat + 1
    let padded := digits ++ List.replicate (whole - digits.length) '0'
    let fraction := padded.drop whole
    padded.take whole ++ '.' :: (if fraction.isEmpty then ['0'] else fraction)
  else
    let sign := if leading < 0 then '-' else '+'
    let exponent := decimalDigits leading.natAbs
    digits.take 1 ++ (if digits.length = 1 then [] else '.' :: digits.drop 1) ++
      'e' :: sign :: exponent

/-- A finite double as messages show it. -/
def doubleText (negative : Bool) (m : Nat) (e : Int) : List Char :=
  let size := if m = 0 then ['0', '.', '0'] else
    let (d, k) := shortest m e
    decimalText d k
  if negative then '-' :: size else size

end DemoScaffold.Number
