import DemoScaffold.Json.Number
import DemoScaffold.Json.Text

/-!
# Tokens of JSON texts

A JSON text as a list of tokens. A text or number keeps what reading it gives, which may be a fault
that does not matter where it is passed over. A token that is malformed either way is the last one.
-/

namespace DemoScaffold.Json

inductive Token where
  | openList
  | closeList
  | openObject
  | closeObject
  | comma
  | colon
  | null
  | bool (b : Bool)
  | number (value : Except JsonFault JsonNumber)
  | text (value : Except JsonFault (List Char))
  | broken (isText : Bool) (read skipped : JsonFault)
  | stray
deriving Repr

def isSpace (c : Char) : Bool :=
  c = ' ' || c = '\n' || c = '\t' || c = '\r'

/-- What is wrong with a word that is not as expected: it ends too early or differs. -/
def wordFault? : (expected : List Char) → List Char → Option JsonFault
  | [], _ => none
  | _ :: _, [] => some .eofInValue
  | e :: expected, c :: rest => if c = e then wordFault? expected rest else some .expectedIdent

/-- The fault of a malformed token when it is read, where that differs from the one when it is
passed over. -/
def faultOr {α : Type} (read : Except JsonFault α) (skipped : JsonFault) : JsonFault :=
  match read with
  | .error fault => fault
  | .ok _ => skipped

/-- The first token of a text that does not start with white space, and how many characters follow
its first one in it; none if the token is the last one. -/
def firstToken (c : Char) (rest : List Char) : Token × Option Nat :=
  let word (expected : List Char) (t : Token) : Token × Option Nat :=
    match wordFault? expected rest with
    | none => (t, some expected.length)
    | some fault => (.broken false fault fault, none)
  if c = '[' then (.openList, some 0)
  else if c = ']' then (.closeList, some 0)
  else if c = '\x7b' then (.openObject, some 0)
  else if c = '\x7d' then (.closeObject, some 0)
  else if c = ',' then (.comma, some 0)
  else if c = ':' then (.colon, some 0)
  else if c = 'n' then word ['u', 'l', 'l'] .null
  else if c = 't' then word ['r', 'u', 'e'] (.bool true)
  else if c = 'f' then word ['a', 'l', 's', 'e'] (.bool false)
  else if c = '"' then
    match textLength rest with
    | .ok length => (.text (readText rest), some length)
    | .error skipped => (.broken true (faultOr (readText rest) skipped) skipped, none)
  else if c = '-' ∨ c.isDigit then
    match readNumberText .invalidNumber (c :: rest) with
    | .ok t => (.number (readNumber (c :: rest)), some (t.length - 1))
    | .error skipped => (.broken false (faultOr (readNumber (c :: rest)) skipped) skipped, none)
  else (.stray, none)

/-- The tokens of a text after its first `skip` characters. -/
def tokensAfter : (skip : Nat) → List Char → List Token
  | _, [] => []
  | skip + 1, _ :: rest => tokensAfter skip rest
  | 0, c :: rest =>
    if isSpace c then tokensAfter 0 rest
    else
      match firstToken c rest with
      | (t, some length) => t :: tokensAfter length rest
      | (t, none) => [t]

def tokens (s : List Char) : List Token :=
  tokensAfter 0 s

end DemoScaffold.Json
