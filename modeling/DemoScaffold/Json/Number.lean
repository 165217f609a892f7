import DemoScaffold.Json.Fault

/-!
# Numbers in JSON texts

The grammar of numbers, and their values. An integer that fits 64 bits keeps its value. Any other
number is a double: its first digits, as many as fit 64 bits, are rounded and then multiplied or
divided by a power of ten, so its last bit need not be the nearest one.
-/

namespace DemoScaffold.Json

def digitsOf (s : List Char) : List Char := s.takeWhile Char.isDigit

def afterDigits (s : List Char) : List Char := s.dropWhile Char.isDigit

/-- The parts of a number as written, and how many characters it has. -/
structure NumberText where
  negative : Bool
  whole : List Char
  fraction : Option (List Char)
  power : Option (Bool × List Char)
  length : Nat
deriving Repr, DecidableEq

/-- The digits asked for at some point of a number; at the end of the text `atEnd` is the fault. -/
def readDigits (atEnd : JsonFault) (s : List Char) : Except JsonFault (List Char × List Char) :=
  match s with
  | [] => .error atEnd
  | _ => if (digitsOf s).isEmpty then .error .invalidNumber else .ok (digitsOf s, afterDigits s)

/-- Reads a number at the start of a text; a text that ends within one is refused by `atEnd`. -/
def readNumberText (atEnd : JsonFault) (s : List Char) : Except JsonFault NumberText := do
  let negative := s.head? == some '-'
  let start := if negative then s.drop 1 else s
  let (digits, behind) ← readDigits atEnd start
  if 1 < digits.length ∧ digits.head? = some '0' then throw .invalidNumber
  let (fraction, behind) ←
    match behind with
    | '.' :: rest => do
      let (digits, behind) ← readDigits atEnd rest
      pure (some digits, behind)
    | _ => pure (none, behind)
  let (power, behind) ←
    match behind with
    | mark :: rest =>
      if mark = 'e' ∨ mark = 'E' then do
        let positive := rest.head? != some '-'
        let rest := if rest.head? = some '-' ∨ rest.head? = some '+' then rest.drop 1 else rest
        let (digits, behind) ← readDigits atEnd rest
        pure (some (positive, digits), behind)
      else pure (none, behind)
    | [] => pure (none, behind)
  return ⟨negative, digits, fraction, power, s.length - behind.length⟩

/-- The greatest number that fits 64 bits. -/
def maxWord : Nat := Nat.pow 2 64 - 1

def digitValue (c : Char) : Nat := c.toNat - '0'.toNat

/-- Appends digits to a number while the result does not exceed `limit`; the digits left over are
told too. -/
def appendDigits (limit : Nat) : Nat → List Char → Nat × List Char
  | n, [] => (n, [])
  | n, c :: rest =>
    let next := n * 10 + digitValue c
    if limit < next then (n, c :: rest) else appendDigits limit next rest

/-- The pattern of a power of ten. -/
def powerOfTen (k : Nat) : Nat :=
  Number.binary64.nearest (Nat.pow 10 k) 1

/-- The double for `significand · 10 ^ exponent`. -/
def scaledDouble (negative : Bool) (significand : Nat) (exponent : Int) :
    Except JsonFault JsonNumber :=
  let start := Number.binary64.nearest significand 1
  if significand = 0 then .ok (.double negative 0)
  else if 308 < exponent then .error .numberOutOfRange
  else if 0 ≤ exponent then
    let bits := Number.binary64.product start (powerOfTen exponent.toNat)
    if bits = Number.binary64.infinity then .error .numberOutOfRange
    else .ok (.double negative bits)
  else if -308 ≤ exponent then
    .ok (.double negative (Number.binary64.quotient start (powerOfTen (-exponent).toNat)))
  else if -616 ≤ exponent then
    let smaller := Number.binary64.quotient start (powerOfTen 308)
    .ok (.double negative (Number.binary64.quotient smaller (powerOfTen (-exponent - 308).toNat)))
  else .ok (.double negative 0)

def NumberText.value (t : NumberText) : Except JsonFault JsonNumber :=
  let (n, dropped) := appendDigits maxWord 0 t.whole
  match t.fraction, t.power, dropped with
  | none, none, [] =>
    if !t.negative then .ok (.natural n)
    else if n = 0 ∨ Nat.pow 2 63 < n then .ok (.double true (Number.binary64.nearest n 1))
    else .ok (.negative n)
  | _, _, _ =>
    let fraction := t.fraction.getD []
    let (m, left) := appendDigits maxWord n fraction
    let shift : Int := dropped.length - (fraction.length - left.length : Nat)
    match t.power with
    | none => scaledDouble t.negative m shift
    | some (positive, digits) =>
      match appendDigits (Nat.pow 2 31 - 1) 0 digits with
      | (power, []) => scaledDouble t.negative m (if positive then shift + power else shift - power)
      | _ =>
        if m ≠ 0 ∧ positive then .error .numberOutOfRange else .ok (.double t.negative 0)

def readNumber (s : List Char) : Except JsonFault JsonNumber := do
  (← readNumberText .eofInValue s).value

end DemoScaffold.Json
