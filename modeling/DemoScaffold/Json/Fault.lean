import DemoScaffold.Number.Shortest
import DemoScaffold.Text.Quoted

/-!
# Faults of JSON texts

Why a JSON text is refused: it is malformed, or what it says does not have the shape asked for.
-/

namespace DemoScaffold

/-- A number as read: an integer that fits 64 bits, or a double. -/
inductive JsonNumber where
  | natural (n : Nat)
  | negative (n : Nat)
  | double (isNegative : Bool) (bits : Nat)
deriving DecidableEq, Repr

/-- What was found in place of what was asked for. -/
inductive JsonFound where
  | null
  | bool (b : Bool)
  | number (n : JsonNumber)
  | text (s : List Char)
  | sequence
  | map
deriving DecidableEq, Repr

inductive JsonFault where
  | invalidType (found : JsonFound) (expected : String)
  | invalidLength (length : Nat) (expected : String)
  | missingField (name : String)
  | duplicateField (name : String)
  | trailingCharacters
  | trailingComma
  | expectedValue
  | expectedIdent
  | expectedColon
  | expectedCommaOrBracket
  | expectedCommaOrBrace
  | keyMustBeString
  | invalidNumber
  | numberOutOfRange
  | invalidEscape
  | unexpectedEndOfEscape
  | loneSurrogate
  | controlCharacter
  | eofInValue
  | eofInText
  | eofInList
  | eofInObject
deriving DecidableEq, Repr

def JsonNumber.written : JsonNumber → List Char
  | .natural n => Number.decimalDigits n
  | .negative n => '-' :: Number.decimalDigits n
  | .double isNegative bits =>
    match Number.binary64.decode bits with
    | .finite _ m e => Number.doubleText isNegative m e
    | .infinite _ => "inf".toList
    | .nan => "NaN".toList

/-- The sort of a number as messages name it. -/
def JsonNumber.sort : JsonNumber → String
  | .natural _ | .negative _ => "integer"
  | .double _ _ => "floating point"

def JsonNumber.message (n : JsonNumber) : String :=
  n.sort ++ " `" ++ String.ofList n.written ++ "`"

def JsonFound.message : JsonFound → String
  | .null => "null"
  | .bool b => "boolean `" ++ (if b then "true" else "false") ++ "`"
  | .number n => n.message
  | .text s => "string " ++ String.ofList (Text.quoted s)
  | .sequence => "sequence"
  | .map => "map"

def JsonFault.message : JsonFault → String
  | .invalidType found expected => "invalid type: " ++ found.message ++ ", expected " ++ expected
  | .invalidLength length expected =>
    "invalid length " ++ String.ofList (Number.decimalDigits length) ++ ", expected " ++ expected
  | .missingField name => "missing field `" ++ name ++ "`"
  | .duplicateField name => "duplicate field `" ++ name ++ "`"
  | .trailingCharacters => "trailing characters"
  | .trailingComma => "trailing comma"
  | .expectedValue => "expected value"
  | .expectedIdent => "expected ident"
  | .expectedColon => "expected `:`"
  | .expectedCommaOrBracket => "expected `,` or `]`"
  | .expectedCommaOrBrace => "expected `,` or `\x7d`"
  | .keyMustBeString => "key must be a string"
  | .invalidNumber => "invalid number"
  | .numberOutOfRange => "number out of range"
  | .invalidEscape => "invalid escape"
  | .unexpectedEndOfEscape => "unexpected end of hex escape"
  | .loneSurrogate => "lone leading surrogate in hex escape"
  | .controlCharacter => "control character (\\u0000-\\u001F) found while parsing a string"
  | .eofInValue => "EOF while parsing a value"
  | .eofInText => "EOF while parsing a string"
  | .eofInList => "EOF while parsing a list"
  | .eofInObject => "EOF while parsing an object"

end DemoScaffold
