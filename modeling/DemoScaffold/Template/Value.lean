import DemoScaffold.Bindings
import DemoScaffold.Json.Comparison

/-!
# Values

What markers and arguments stand for: nothing, a truth value, a number, a text, a list, or a record
with named fields in the order of their names. The bindings are a record of texts.
-/

namespace DemoScaffold.Template

inductive Value where
  | null
  | flag (b : Bool)
  | number (n : JsonNumber)
  | text (s : String)
  | list (items : List Value)
  | record (fields : List (String × Value))
deriving Repr, Inhabited

def fieldsOf (entries : List (String × String)) : List (String × Value) :=
  entries.map fun e => (e.1, .text e.2)

namespace Value

def ofBindings (b : Bindings) : Value :=
  .record (fieldsOf b.entries)

def ofNat (n : Nat) : Value :=
  .number (.natural n)

/-- Whether a value counts as true: it is not null, false, empty, or a number without a normal
double; all numbers count as true where zero does. -/
def isTrue (zeroCounts : Bool) : Value → Bool
  | .null => false
  | .flag b => b
  | .number n => zeroCounts || n.isNormal
  | .text s => s ≠ ""
  | .list items => !items.isEmpty
  | .record fields => !fields.isEmpty

mutual
def written : Value → List Char
  | .null => []
  | .flag b => (if b then "true" else "false").toList
  | .number n => n.written
  | .text s => s.toList
  | .list items => '[' :: writtenItems items ++ [']']
  | .record _ => "[object]".toList

/-- How the items of a list are written, with a comma and a space between them. -/
def writtenItems : List Value → List Char
  | [] => []
  | v :: rest => v.written ++ (if rest.isEmpty then [] else ',' :: ' ' :: writtenItems rest)
end

/-! ## Comparisons -/

mutual
def same : Value → Value → Bool
  | .null, .null => true
  | .flag a, .flag b => a == b
  | .number m, .number n => m.same n
  | .text s, .text t => s == t
  | .list xs, .list ys => sameItems xs ys
  | .record fs, .record gs => sameFields fs gs
  | _, _ => false

def sameItems : List Value → List Value → Bool
  | [], [] => true
  | v :: xs, w :: ys => v.same w && sameItems xs ys
  | _, _ => false

def sameFields : List (String × Value) → List (String × Value) → Bool
  | [], [] => true
  | (j, v) :: fs, (k, w) :: gs => j == k && v.same w && sameFields fs gs
  | _, _ => false
end

def orderOfTexts (s t : String) : Ordering :=
  if s = t then .eq else if Text.before s t then .lt else .gt

/-- The order of two values, where they have one. -/
def order? : Value → Value → Option Ordering
  | .number m, .number n => some (m.order n)
  | .text s, .text t => some (orderOfTexts s t)
  | .flag a, .flag b => some (compare a b)
  | .number n, .text s => n.orderWithText? s
  | .text s, .number n => (n.orderWithText? s).map Ordering.swap
  | _, _ => none

/-! ## Parts -/

/-- Fields named by numbers, from some number on. -/
def numberedFrom : (start : Nat) → List Value → List (String × Value)
  | _, [] => []
  | n, v :: rest => (toString n, v) :: numberedFrom (n + 1) rest

/-- A value as fields: those of a record, the items of a list and the characters of a text by their
numbers, and none of any other value. -/
def asFields : Value → List (String × Value)
  | .record fields => fields
  | .list items => numberedFrom 0 items
  | .text s => numberedFrom 0 (s.toList.map fun c => .text c.toString)
  | _ => []

/-- A value with further fields. It stays what it is if there are none. -/
def withFields (fields : List (String × Value)) (v : Value) : Value :=
  if fields.isEmpty then v
  else .record ((v.asFields ++ fields).foldl (fun all f => Bindings.bind f.1 f.2 all) [])

end Value

end DemoScaffold.Template
