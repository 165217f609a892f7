import DemoScaffold.Text.Utf8

/-!
# The order of texts

Texts are ordered by their bytes in UTF-8, a text before those it begins.
-/

namespace DemoScaffold.Text

/-- The bytes of a text as numbers; texts are ordered by them. -/
def byteKey (s : String) : List Nat :=
  (Utf8.encode s.toList).map UInt8.toNat

/-- Whether a text comes before another one. -/
def before (s t : String) : Bool :=
  byteKey s < byteKey t

end DemoScaffold.Text
