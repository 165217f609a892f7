import DemoScaffold.Star.Mesh
import DemoScaffold.ToolError

/-!
# Stars

A star is a fan of triangles around its centre. The points on its ring are in turn on the outer and
on the inner radius, each a step further counter-clockwise, the first one straight up.
-/

namespace DemoScaffold

/-- The shape of a star: how many points its ring has, its radius, and the ratios of the radius for
its tips and its notches. -/
structure StarShape where
  points : UInt16
  radius : Float
  outer : Float
  inner : Float

/-- The shape that is used if nothing else is asked for. -/
def StarShape.standard : StarShape := ⟨10, 0.5, 1.0, 0.4⟩

/-- The radians in a degree, rounded. -/
def radiansPerDegree : Float := 0.017453292519943295

def StarShape.ringVertex (s : StarShape) (i : Nat) : Vertex :=
  let r := s.radius * (if i % 2 = 0 then s.outer else s.inner)
  let angle := 360.0 / s.points.toFloat * i.toFloat * radiansPerDegree
  { x := (-r * angle.sin).toFloat32.toBits
    y := (r * angle.cos).toFloat32.toBits
    z := 0 }

/-- The triangle from the centre to the `i`-th point of the ring and the next one. -/
def fanTriangle (points i : UInt16) : List UInt16 :=
  [0, i + 1, (i + 1) % points + 1]

def StarShape.mesh (s : StarShape) : Mesh where
  vertices := ⟨0, 0, 0⟩ :: (List.range s.points.toNat).map s.ringVertex
  indices := (List.range s.points.toNat).flatMap fun i => fanTriangle s.points (.ofNat i)

/-- The mesh of a star whose points a fan of sixteen-bit indices can name. -/
def StarShape.generate (s : StarShape) : Except ToolError Mesh :=
  if s.points < 3 ∨ s.points = 65535 then .error (.badRingPoints s.points)
  else .ok s.mesh

end DemoScaffold
