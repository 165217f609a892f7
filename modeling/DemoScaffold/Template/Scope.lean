import DemoScaffold.Number.Reading
import DemoScaffold.Template.Fault
import DemoScaffold.Template.Marker

/-!
# Scopes

What markers refer to. Every block that has a value of its own puts a frame in front of those around
it. A value that the tag of a block names is found from all frames within it, wherever the marker
starts; a value with an `@` name is found in one frame only.
-/

namespace DemoScaffold.Template

/-- A block: its value, what it gives by `@` names, and the values that its tag names. -/
structure Frame where
  value : Value
  given : List (String × Value)
  named : List (String × Value)
deriving Repr, Inhabited

/-- All bindings, and the blocks around some markup, the innermost first. -/
structure Scope where
  root : Value
  inner : Frame
  outer : List Frame
deriving Repr, Inhabited

/-! ## Parts of values -/

/-- The greatest index of an item. -/
def maxIndex : Nat := Nat.pow 2 64 - 1

/-- The number of an item, with an optional plus sign. -/
def readIndex? (name : String) : Option Nat :=
  let digits := if name.toList.head? = some '+' then name.toList.drop 1 else name.toList
  let n := Number.ofDigits digits
  if digits.isEmpty || !digits.all Char.isDigit || maxIndex < n then none else some n

namespace Value

/-- The part of a value that has a name. Only records and lists have parts, and a list refuses what
is no number. -/
def part? (name : String) : Value → Except RenderFault (Option Value)
  | .record fields => .ok (fields.lookup name)
  | .list items =>
    match readIndex? name with
    | some i => .ok items[i]?
    | none => .error (.badIndex name)
  | _ => .ok none

/-- The value that names lead to. -/
def follow : List String → Value → Except RenderFault (Option Value)
  | [], v => .ok (some v)
  | name :: more, v =>
    match v.part? name with
    | .ok (some w) => follow more w
    | .ok none => .ok none
    | .error fault => .error fault

end Value

namespace Scope

def ofRoot (v : Value) : Scope :=
  ⟨v, ⟨v, [], []⟩, []⟩

def enter (sc : Scope) (value : Value) (given named : List (String × Value)) : Scope :=
  ⟨sc.root, ⟨value, given, named⟩, sc.inner :: sc.outer⟩

/-- The scope inside a further block that gives the same by `@` names as the one around it. -/
def enterWith (sc : Scope) (value : Value) (named : List (String × Value)) : Scope :=
  sc.enter value sc.inner.given named

/-- The block so many blocks further out, if there are so many. -/
def frame? (sc : Scope) (up : Nat) : Option Frame :=
  (sc.inner :: sc.outer)[up]?

/-- The value that the tag of a block names, the innermost block first. -/
def named? (sc : Scope) (name : String) : Option Value :=
  (sc.inner :: sc.outer).findSome? fun frame => frame.named.lookup name

/-- What the block so many blocks further out gives by an `@` name. -/
def given? (sc : Scope) (up : Nat) (name : String) : Option Value :=
  (sc.frame? up).bind fun frame => frame.given.lookup name

/-- The value of the block so many blocks further out, or of the innermost one if there are not so
many. -/
def valueAt (sc : Scope) (up : Nat) : Value :=
  ((sc.frame? up).getD sc.inner).value

end Scope

/-- The value of a marker. A value named by a tag comes before the parts of other values, however
many blocks the marker goes up. -/
def Marker.value? (m : Marker) (sc : Scope) : Except RenderFault (Option Value) :=
  if m.fromRoot then sc.root.follow m.names
  else
    match m.fromBlock, m.names with
    | true, [] => .ok (some sc.inner.value)
    | true, name :: _ => .ok (sc.given? m.up name)
    | false, [] => .ok (some (sc.valueAt m.up))
    | false, name :: more =>
      match sc.named? name with
      | some v => v.follow more
      | none => (sc.valueAt m.up).follow (name :: more)

end DemoScaffold.Template
