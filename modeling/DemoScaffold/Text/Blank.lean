/-!
# White space

The characters with the property White_Space, and trimming by them.
-/

namespace DemoScaffold.Text

/-- The characters with the property White_Space. -/
def isWhite (c : Char) : Bool :=
  let n := c.toNat
  (0x9 ≤ n && n ≤ 0xD) || n == 0x20 || n == 0x85 || n == 0xA0 || n == 0x1680 ||
    (0x2000 ≤ n && n ≤ 0x200A) || n == 0x2028 || n == 0x2029 || n == 0x202F || n == 0x205F ||
    n == 0x3000

/-- Drops the longest end whose characters all satisfy `p`. -/
def dropEndWhile (p : Char → Bool) (s : List Char) : List Char :=
  (s.reverse.dropWhile p).reverse

def trimStart (s : List Char) : List Char :=
  s.dropWhile isWhite

def trimEnd (s : List Char) : List Char :=
  dropEndWhile isWhite s

def trim (s : List Char) : List Char :=
  trimEnd (trimStart s)

end DemoScaffold.Text
