import DemoScaffold.Number.Fixed

/-!
# Reading numbers

Numbers as they are given on a command line: integers of sixteen bits, and doubles in decimal or
exponent notation, rounded to the nearest one, a half to the even one.
-/

namespace DemoScaffold.Number

def ofDigits (digits : List Char) : Nat :=
  digits.foldl (fun n c => n * 10 + (c.toNat - '0'.toNat)) 0

/-- Whether a text has a minus sign, and the text without its sign. -/
def takeSign : List Char → Bool × List Char
  | '-' :: rest => (true, rest)
  | '+' :: rest => (false, rest)
  | s => (false, s)

/-- A whole number with an optional sign. -/
def readInteger? (s : List Char) : Option Int :=
  let (negative, digits) := takeSign s
  if digits.isEmpty || !digits.all Char.isDigit then none
  else some (if negative then -(ofDigits digits : Int) else ofDigits digits)

/-- A whole number that sixteen bits without a sign can hold. -/
def readWord16? (s : String) : Option UInt16 := do
  let n ← readInteger? s.toList
  if 0 ≤ n ∧ n ≤ 65535 then some (.ofNat n.toNat) else none

/-- The pattern nearest to `significand · 10 ^ exponent`. Far beyond the range of doubles the result
is told by the place of the leading digit alone. -/
def nearestDecimal (significand : Nat) (exponent : Int) : Nat :=
  let leading := exponent + (decimalDigits significand).length
  if significand = 0 ∨ leading < -400 then 0
  else if 400 < leading then binary64.infinity
  else binary64.nearest (significand * Nat.pow 10 exponent.toNat) (Nat.pow 10 (-exponent).toNat)

/-- The power of ten behind the digits of a number; zero if there is nothing. -/
def readPower? : List Char → Option Int
  | [] => some 0
  | c :: rest => if c = 'e' ∨ c = 'E' then readInteger? rest else none

/-- A decimal without a sign: digits with at most one point among or around them, and a power of
ten. -/
def readMagnitude? (s : List Char) : Option Nat := do
  let whole := s.takeWhile Char.isDigit
  let behind := s.dropWhile Char.isDigit
  let (fraction, behind) :=
    match behind with
    | '.' :: rest => (rest.takeWhile Char.isDigit, rest.dropWhile Char.isDigit)
    | _ => ([], behind)
  if whole.isEmpty && fraction.isEmpty then none
  else
    let power ← readPower? behind
    some (nearestDecimal (ofDigits (whole ++ fraction)) (power - fraction.length))

/-- The pattern of a double without a sign; infinity and what is no number have names, in either
case. -/
def readPattern? (s : List Char) : Option Nat :=
  let name := s.map Char.toLower
  if name = "inf".toList ∨ name = "infinity".toList then some binary64.infinity
  else if name = "nan".toList then some (binary64.infinity + Nat.pow 2 51)
  else readMagnitude? s

/-- The sign and the pattern of the double that a text stands for. -/
def readSigned? (s : List Char) : Option (Bool × Nat) :=
  let (negative, rest) := takeSign s
  (readPattern? rest).map (negative, ·)

/-- The double that a text stands for. -/
def readDouble? (s : String) : Option Float := do
  let (negative, pattern) ← readSigned? s.toList
  let bits := if negative then pattern + binary64.signWeight else pattern
  some (.ofBits (.ofNat bits))

end DemoScaffold.Number
