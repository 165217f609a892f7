import DemoScaffold.Json.Fault

/-!
# Texts in JSON texts

Writing a text between quotes and reading it back. A text in a value that is passed over is only
checked for its form, so that a surrogate may stand alone in it.
-/

namespace DemoScaffold.Json

/-! ## Writing -/

def quotedChar (c : Char) : List Char :=
  if c = '"' then ['\\', '"']
  else if c = '\\' then ['\\', '\\']
  else if c = '\x08' then ['\\', 'b']
  else if c = '\x0c' then ['\\', 'f']
  else if c = '\n' then ['\\', 'n']
  else if c = '\r' then ['\\', 'r']
  else if c = '\t' then ['\\', 't']
  else if c < ' ' then
    ['\\', 'u', '0', '0', Nat.digitChar (c.toNat / 16), Nat.digitChar (c.toNat % 16)]
  else [c]

def quoted (s : List Char) : List Char :=
  '"' :: s.flatMap quotedChar ++ ['"']

/-! ## Escapes -/

def hexValue? (c : Char) : Option Nat :=
  if '0' ≤ c ∧ c ≤ '9' then some (c.toNat - '0'.toNat)
  else if 'a' ≤ c ∧ c ≤ 'f' then some (c.toNat - 'a'.toNat + 10)
  else if 'A' ≤ c ∧ c ≤ 'F' then some (c.toNat - 'A'.toNat + 10)
  else none

/-- The value of four hexadecimal digits. Four bytes must be there before the digits are looked
at. -/
def readHex (s : List Char) : Except JsonFault Nat :=
  match s with
  | a :: b :: c :: d :: _ =>
    match hexValue? a, hexValue? b, hexValue? c, hexValue? d with
    | some a, some b, some c, some d => .ok (((a * 16 + b) * 16 + c) * 16 + d)
    | _, _, _, _ => .error .invalidEscape
  | _ => if (String.ofList s).utf8ByteSize < 4 then .error .eofInText else .error .invalidEscape

/-- The second half of a pair of surrogates, behind the first one `lead`: the character and how many
characters of the text the second half has. -/
def readTrail (lead : Nat) : List Char → Except JsonFault (Char × Nat)
  | [] => .error .eofInText
  | '\\' :: [] => .error .eofInText
  | '\\' :: 'u' :: digits => do
    let trail ← readHex digits
    if 0xDC00 ≤ trail ∧ trail ≤ 0xDFFF then
      return (Char.ofNat ((lead - 0xD800) * 0x400 + (trail - 0xDC00) + 0x10000), 6)
    else throw .loneSurrogate
  | _ => .error .unexpectedEndOfEscape

/-- The character of a short escape. -/
def shortEscape? (c : Char) : Option Char :=
  if c = '"' ∨ c = '\\' ∨ c = '/' then some c
  else if c = 'b' then some '\x08'
  else if c = 'f' then some '\x0c'
  else if c = 'n' then some '\n'
  else if c = 'r' then some '\r'
  else if c = 't' then some '\t'
  else none

/-- An escape behind its backslash: the character and how many characters of the text it takes. -/
def readEscape : List Char → Except JsonFault (Char × Nat)
  | [] => .error .eofInText
  | 'u' :: digits => do
    let code ← readHex digits
    if 0xDC00 ≤ code ∧ code ≤ 0xDFFF then throw .loneSurrogate
    else if 0xD800 ≤ code ∧ code ≤ 0xDBFF then
      let (c, taken) ← readTrail code (digits.drop 4)
      return (c, 5 + taken)
    else return (Char.ofNat code, 5)
  | c :: _ =>
    match shortEscape? c with
    | some shown => .ok (shown, 1)
    | none => .error .invalidEscape

/-- How many characters of the text an escape that is only checked takes behind its backslash. -/
def skipEscape : List Char → Except JsonFault Nat
  | [] => .error .eofInText
  | 'u' :: digits => (readHex digits).map fun _ => 5
  | c :: _ => if (shortEscape? c).isSome then .ok 1 else .error .invalidEscape

/-! ## Reading -/

/-- The characters up to the closing quote, after the first `skip` characters of the input. -/
def readTextAfter : (skip : Nat) → List Char → Except JsonFault (List Char)
  | _, [] => .error .eofInText
  | skip + 1, _ :: rest => readTextAfter skip rest
  | 0, c :: rest =>
    if c = '"' then .ok []
    else if c = '\\' then do
      let (shown, taken) ← readEscape rest
      let more ← readTextAfter taken rest
      return shown :: more
    else if c < ' ' then .error .controlCharacter
    else (readTextAfter 0 rest).map (c :: ·)

/-- The text behind an opening quote. -/
def readText (s : List Char) : Except JsonFault (List Char) :=
  readTextAfter 0 s

/-- How many characters there are up to the closing quote and with it, after the first `skip`. -/
def textLengthAfter : (skip : Nat) → List Char → Except JsonFault Nat
  | _, [] => .error .eofInText
  | skip + 1, _ :: rest => (textLengthAfter skip rest).map (· + 1)
  | 0, c :: rest =>
    if c = '"' then .ok 1
    else if c = '\\' then do
      let taken ← skipEscape rest
      let more ← textLengthAfter taken rest
      return more + 1
    else if c < ' ' then .error .controlCharacter
    else (textLengthAfter 0 rest).map (· + 1)

/-- How many characters a text has behind its opening quote, the closing one included. -/
def textLength (s : List Char) : Except JsonFault Nat :=
  textLengthAfter 0 s

end DemoScaffold.Json
