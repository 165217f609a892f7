import DemoScaffold.Number.Fixed
import DemoScaffold.Text.Lines

/-!
# Meshes

Vertices and triangles, and the source text of their tables. Coordinates are written with three
places, a half going to the even neighbour, and zero never has a sign.
-/

namespace DemoScaffold

/-- A point, each coordinate as a pattern of single precision. -/
structure Vertex where
  x : UInt32
  y : UInt32
  z : UInt32
deriving DecidableEq, Repr, Inhabited

/-- Vertices, and three indices for each triangle. -/
structure Mesh where
  vertices : List Vertex
  indices : List UInt16
deriving DecidableEq, Repr, Inhabited

/-- A coordinate as written. -/
def coordinateText (bits : UInt32) : List Char :=
  match Number.binary32.decode bits.toNat with
  | .finite negative m e =>
    let thousandths := Number.scaledNearest 3 m e
    let digits := Number.fixedDigits 3 thousandths
    if negative && thousandths ≠ 0 then '-' :: digits else digits
  | .infinite negative => (if negative then "-inf" else "inf").toList
  | .nan => "NaN".toList

/-- The elements in groups of three; none if some are left over. -/
def inThrees {α : Type} : List α → Option (List (α × α × α))
  | [] => some []
  | a :: b :: c :: rest => (inThrees rest).map ((a, b, c) :: ·)
  | _ => none

namespace Mesh

def triangleCount (mesh : Mesh) : Nat :=
  mesh.indices.length / 3

def vertexLine (v : Vertex) : List Char :=
  "  float3(".toList ++ coordinateText v.x ++ "f, ".toList ++ coordinateText v.y ++
    "f, 0.0f),".toList

def indexDigits (i : UInt16) : List Char :=
  Number.decimalDigits i.toNat

def triangleLine : UInt16 × UInt16 × UInt16 → List Char
  | (a, b, c) =>
    [' ', ' '] ++ indexDigits a ++ [',', ' '] ++ indexDigits b ++ [',', ' '] ++ indexDigits c ++
      ", //".toList

/-- The lines of a table: its head with the size, its rows and its end. -/
def tableLines (head : String) (size : List Char) (rows : List (List Char)) : List (List Char) :=
  (head.toList ++ ['['] ++ size ++ "] = \x7b".toList) :: rows ++ ["\x7d;".toList]

/-- The lines of the source text; none if some indices make no triangle. -/
def sourceLines? (mesh : Mesh) : Option (List (List Char)) := do
  let triangles ← inThrees mesh.indices
  return tableLines "FB_CONSTANT float3 STAR_VERTICES"
      (Number.decimalDigits mesh.vertices.length) (mesh.vertices.map vertexLine) ++
    tableLines "FB_CONSTANT uint16_t STAR_INDICES"
      ("3 * ".toList ++ Number.decimalDigits mesh.triangleCount) (triangles.map triangleLine)

/-- The source text of the tables; none if some indices make no triangle. -/
def source? (mesh : Mesh) : Option String :=
  mesh.sourceLines?.map fun lines => String.ofList (Text.unlines lines)

end Mesh

end DemoScaffold
