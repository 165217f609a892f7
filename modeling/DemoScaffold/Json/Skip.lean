import DemoScaffold.Json.Token

/-!
# Passing over JSON values

A value that nobody asked for is only checked for its form. The check is a machine that looks at one
token after the other and keeps the lists and objects that are still open.
-/

namespace DemoScaffold.Json

/-- A list or an object that is still open. -/
inductive Frame where
  | list
  | object
deriving DecidableEq, Repr

/-- How far the check of a value has come; the frames named last are the outermost ones. -/
inductive Progress where
  | value (outer : List Frame)
  | opened (inner : Frame) (outer : List Frame)
  | next (inner : Frame) (outer : List Frame)
  | key (outer : List Frame)
  | colon (outer : List Frame)
  | done
deriving DecidableEq, Repr

namespace Progress

/-- After a whole value inside the given frames. -/
def afterValue : List Frame → Progress
  | [] => .done
  | inner :: outer => .next inner outer

/-- A token where a value starts. -/
def enterValue (frames : List Frame) : Token → Except JsonFault Progress
  | .null | .bool _ | .number _ | .text _ => .ok (afterValue frames)
  | .openList => .ok (.opened .list frames)
  | .openObject => .ok (.opened .object frames)
  | .broken _ _ skipped => .error skipped
  | .closeList | .closeObject | .comma | .colon | .stray => .error .expectedValue

/-- A token where the key of a member starts. -/
def enterKey (outer : List Frame) : Token → Except JsonFault Progress
  | .text _ => .ok (.colon outer)
  | .broken true _ skipped => .error skipped
  | _ => .error .keyMustBeString

def advance : Progress → Token → Except JsonFault Progress
  | .value outer, t => enterValue outer t
  | .opened .list outer, .closeList => .ok (afterValue outer)
  | .opened .list outer, t => enterValue (.list :: outer) t
  | .opened .object outer, .closeObject => .ok (afterValue outer)
  | .opened .object outer, t => enterKey outer t
  | .next .list outer, .closeList => .ok (afterValue outer)
  | .next .list outer, .comma => .ok (.value (.list :: outer))
  | .next .list _, _ => .error .expectedCommaOrBracket
  | .next .object outer, .closeObject => .ok (afterValue outer)
  | .next .object outer, .comma => .ok (.key outer)
  | .next .object _, _ => .error .expectedCommaOrBrace
  | .key outer, t => enterKey outer t
  | .colon outer, .colon => .ok (.value (.object :: outer))
  | .colon _, _ => .error .expectedColon
  | .done, _ => .ok .done

/-- The fault of a text that ends too early. -/
def atEnd : Progress → JsonFault
  | .value _ => .eofInValue
  | .opened .list _ | .next .list _ => .eofInList
  | .opened .object _ | .next .object _ | .key _ | .colon _ => .eofInObject
  | .done => .eofInValue

end Progress

/-- The tokens behind the value that is being passed over. -/
def skipFrom (progress : Progress) : List Token → Except JsonFault (List Token)
  | [] => .error progress.atEnd
  | t :: rest =>
    match progress.advance t with
    | .error fault => .error fault
    | .ok .done => .ok rest
    | .ok further => skipFrom further rest

/-- The tokens behind the value at the start. -/
def skipValue (ts : List Token) : Except JsonFault (List Token) :=
  skipFrom (.value []) ts

end DemoScaffold.Json
