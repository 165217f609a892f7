import DemoScaffold.Proofs.Star.Triangles
import DemoScaffold.Star.Shape
import Mathlib.Data.List.Rotate

/-!
# The fan of a star

A star with `n` points on its ring has a triangle for each of them: from the centre to the point and on to
the next one, where the first follows the last. Sixteen bits are enough for all that is computed, up to the
largest ring (`fanIndices?_eq`), and the triangles close around the centre (`generate_closedFan`).
-/

namespace DemoScaffold

/-! ## Computing with a check -/

/-- The sum, if sixteen bits hold it. -/
def addChecked? (a b : UInt16) : Option UInt16 :=
  if a.toNat + b.toNat < UInt16.size then some (a + b) else none

/-- The remainder, unless it is one of a division by zero. -/
def modChecked? (a b : UInt16) : Option UInt16 :=
  if b = 0 then none else some (a % b)

/-- The indices of a triangle, if nothing in their computation wraps or divides by zero. -/
def fanTriangle? (points i : UInt16) : Option (List UInt16) := do
  let second ← addChecked? i 1
  let next ← modChecked? (← addChecked? i 1) points
  let third ← addChecked? next 1
  return [0, second, third]

/-- The indices of all triangles, with the same checks. -/
def fanIndices? (points : UInt16) : Option (List UInt16) := do
  let triangles ← (List.range points.toNat).mapM fun i => fanTriangle? points (.ofNat i)
  return triangles.flatten

/-! ## Closed fans -/

/-- A vertex on a ring of `n`. -/
def OnRing (n : Nat) (v : UInt16) : Prop :=
  1 ≤ v.toNat ∧ v.toNat ≤ n

/-- The triangles make a fan that closes around the centre, vertex 0: each goes from the centre to a vertex
of a ring of `n` and to another one, and each vertex of the ring is once the second corner of a triangle and
once the third. From vertex 1 the triangles lead through the ring, past each vertex once, and back. -/
structure ClosedFan (n : Nat) (triangles : List (UInt16 × UInt16 × UInt16)) : Prop where
  centred : ∀ t ∈ triangles, t.1 = 0 ∧ OnRing n t.2.1 ∧ OnRing n t.2.2
  apart : ∀ t ∈ triangles, [t.1, t.2.1, t.2.2].Nodup
  second : ∀ v, OnRing n v → (triangles.map (·.2.1)).count v = 1
  third : ∀ v, OnRing n v → (triangles.map (·.2.2)).count v = 1
  cycle : ∃ ring, ring.head? = some 1 ∧ ring.Nodup ∧ (∀ v, v ∈ ring ↔ OnRing n v) ∧
    (ring ++ [1]).IsChain fun v w => ∃ t ∈ triangles, t.2.1 = v ∧ t.2.2 = w

/-- The `i`-th vertex of the ring. -/
def ringIndex (i : Nat) : UInt16 :=
  .ofNat (i + 1)

def ringTriangles (n : Nat) : List (UInt16 × UInt16 × UInt16) :=
  (List.range n).map fun i => (0, ringIndex i, ringIndex ((i + 1) % n))

variable {n i j : Nat} {points : UInt16}

theorem toNat_ringIndex (h : i < 65535) : (ringIndex i).toNat = i + 1 :=
  UInt16.toNat_ofNat_of_lt' (Nat.succ_lt_succ h)

theorem ringIndex_ne_zero (h : i < 65535) : ringIndex i ≠ 0 := by
  intro hzero
  have hnat := toNat_ringIndex h
  rw [hzero] at hnat
  cases hnat

theorem onRing_ringIndex (h : i < n) (hn : n < 65535) : OnRing n (ringIndex i) := by
  rw [OnRing, toNat_ringIndex (Nat.lt_trans h hn)]
  omega

theorem ringIndex_injOn (hi : i < 65535) (hj : j < 65535) (h : ringIndex i = ringIndex j) : i = j := by
  have hnat := congrArg UInt16.toNat h
  rw [toNat_ringIndex hi, toNat_ringIndex hj] at hnat
  omega

theorem mod_ne_self (hn : 3 ≤ n) (h : i < n) : i ≠ (i + 1) % n := by
  intro heq
  by_cases hlast : i + 1 = n
  · rw [hlast, Nat.mod_self] at heq
    omega
  · rw [Nat.mod_eq_of_lt (by omega)] at heq
    omega

/-- The vertices of the ring in their order. -/
def ringIndices (n : Nat) : List UInt16 :=
  (List.range n).map ringIndex

theorem nodup_ringIndices (hn : n < 65535) : (ringIndices n).Nodup := by
  apply List.Nodup.map_on _ List.nodup_range
  intro i hi j hj h
  rw [List.mem_range] at hi hj
  exact ringIndex_injOn (Nat.lt_trans hi hn) (Nat.lt_trans hj hn) h

theorem mem_ringIndices (hn : n < 65535) (v : UInt16) : v ∈ ringIndices n ↔ OnRing n v := by
  rw [ringIndices, List.mem_map]
  constructor
  · rintro ⟨i, hi, rfl⟩
    exact onRing_ringIndex (List.mem_range.mp hi) hn
  · rintro ⟨hlow, hhigh⟩
    refine ⟨v.toNat - 1, List.mem_range.mpr (by omega), ?_⟩
    rw [ringIndex, Nat.sub_add_cancel hlow]
    exact UInt16.ofNat_toNat

theorem map_second (n : Nat) : (ringTriangles n).map (·.2.1) = ringIndices n := by
  simp [ringTriangles, ringIndices]

/-- The third corners are those of the ring, one step further. -/
theorem map_third (n : Nat) : (ringTriangles n).map (·.2.2) = (ringIndices n).rotate 1 := by
  apply List.ext_getElem
  · simp [ringTriangles, ringIndices]
  · intro i hi hi'
    simp [ringTriangles, ringIndices, List.getElem_rotate]

theorem mem_ringTriangles (h : i < n) : (0, ringIndex i, ringIndex ((i + 1) % n)) ∈ ringTriangles n :=
  List.mem_map.mpr ⟨i, List.mem_range.mpr h, rfl⟩

/-- The ring and its first vertex again. -/
theorem ringIndices_closed (n : Nat) :
    ringIndices n ++ [1] = (List.range (n + 1)).map fun i => ringIndex (i % n) := by
  have hring : ∀ i ∈ List.range n, ringIndex i = ringIndex (i % n) := by
    intro i hi
    rw [Nat.mod_eq_of_lt (List.mem_range.mp hi)]
  rw [List.range_succ, List.map_append, ringIndices, List.map_congr_left hring, List.map_singleton,
    Nat.mod_self]
  rfl

theorem isChain_ringIndices (n : Nat) : (ringIndices n ++ [1]).IsChain fun v w =>
    ∃ t ∈ ringTriangles n, t.2.1 = v ∧ t.2.2 = w := by
  rw [ringIndices_closed, List.isChain_iff_getElem]
  intro i hi
  have hlt : i < n := by simpa using hi
  refine ⟨_, mem_ringTriangles hlt, ?_, ?_⟩
  · simp [Nat.mod_eq_of_lt hlt]
  · simp

theorem closedFan_ringTriangles (hn : 3 ≤ n) (hmax : n < 65535) : ClosedFan n (ringTriangles n) where
  centred := by
    intro t ht
    obtain ⟨i, hi, rfl⟩ := List.mem_map.mp ht
    have hnext : (i + 1) % n < n := Nat.mod_lt _ (by omega)
    exact ⟨rfl, onRing_ringIndex (List.mem_range.mp hi) hmax, onRing_ringIndex hnext hmax⟩
  apart := by
    intro t ht
    obtain ⟨i, hi, rfl⟩ := List.mem_map.mp ht
    have hlt : i < n := List.mem_range.mp hi
    have hnext : (i + 1) % n < n := Nat.mod_lt _ (by omega)
    have hturn : ringIndex i ≠ ringIndex ((i + 1) % n) := fun heq =>
      mod_ne_self hn hlt (ringIndex_injOn (by omega) (by omega) heq)
    simpa using ⟨⟨(ringIndex_ne_zero (by omega)).symm, (ringIndex_ne_zero (by omega)).symm⟩, hturn⟩
  second := by
    intro v hv
    rw [map_second]
    exact List.count_eq_one_of_mem (nodup_ringIndices hmax) ((mem_ringIndices hmax v).mpr hv)
  third := by
    intro v hv
    rw [map_third]
    apply List.count_eq_one_of_mem
    · exact List.nodup_rotate.mpr (nodup_ringIndices hmax)
    · exact List.mem_rotate.mpr ((mem_ringIndices hmax v).mpr hv)
  cycle := by
    refine ⟨ringIndices n, ?_, nodup_ringIndices hmax, mem_ringIndices hmax, isChain_ringIndices n⟩
    obtain ⟨m, rfl⟩ := Nat.exists_eq_succ_of_ne_zero (show n ≠ 0 by omega)
    rw [ringIndices, List.range_succ_eq_map]
    rfl

/-- The centre and the ring are all vertices that a fan needs. -/
theorem ClosedFan.toNat_le {triangles : List (UInt16 × UInt16 × UInt16)} {v : UInt16}
    (h : ClosedFan n triangles) (hv : v ∈ corners triangles) : v.toNat ≤ n := by
  rw [corners, List.mem_flatMap] at hv
  obtain ⟨t, ht, hv⟩ := hv
  obtain ⟨hfirst, hsecond, hthird⟩ := h.centred t ht
  simp only [List.mem_cons, List.not_mem_nil, or_false] at hv
  rcases hv with rfl | rfl | rfl
  · rw [hfirst]
    exact Nat.zero_le n
  · exact hsecond.2
  · exact hthird.2

/-! ## The mesh of a star -/

theorem toNat_lt_of_ne (hpoints : points ≠ 65535) : points.toNat < 65535 := by
  have hlt : points.toNat < 65536 := points.toNat_lt
  have hne : points.toNat ≠ 65535 := fun h => hpoints (UInt16.toNat_inj.mp h)
  omega

theorem addChecked?_one {a : UInt16} (h : a.toNat < 65535) : addChecked? a 1 = some (a + 1) :=
  if_pos (Nat.succ_lt_succ h)

theorem add_one_eq_ringIndex {a : UInt16} (ha : a.toNat = i) (h : i < 65535) : a + 1 = ringIndex i := by
  apply UInt16.toNat_inj.mp
  have hsum : (a + 1).toNat = (a.toNat + 1) % 65536 := UInt16.toNat_add a 1
  rw [hsum, toNat_ringIndex h, ha, Nat.mod_eq_of_lt (Nat.succ_lt_succ h)]

/-- Nothing wraps, nothing is divided by zero, and the corners are those of the ring. -/
theorem fanTriangle?_eq (hpoints : points ≠ 65535) (h : i < points.toNat) :
    fanTriangle? points (.ofNat i) = some (fanTriangle points (.ofNat i)) ∧
      fanTriangle points (.ofNat i) = [0, ringIndex i, ringIndex ((i + 1) % points.toNat)] := by
  have hmax := toNat_lt_of_ne hpoints
  have hi : (UInt16.ofNat i).toNat = i := UInt16.toNat_ofNat_of_lt' (show i < 65536 by omega)
  have hsecond : UInt16.ofNat i + 1 = ringIndex i := add_one_eq_ringIndex hi (by omega)
  have hnext : (ringIndex i % points).toNat = (i + 1) % points.toNat := by
    rw [UInt16.toNat_mod, toNat_ringIndex (by omega)]
  have hlt : (i + 1) % points.toNat < 65535 := Nat.lt_trans (Nat.mod_lt _ (by omega)) hmax
  have hthird : ringIndex i % points + 1 = ringIndex ((i + 1) % points.toNat) :=
    add_one_eq_ringIndex hnext hlt
  have hzero : points ≠ 0 := by
    rintro rfl
    cases h
  constructor
  · have hfirst : addChecked? (.ofNat i) 1 = some (ringIndex i) := by
      rw [addChecked?_one (by omega), hsecond]
    have hlast : addChecked? (ringIndex i % points) 1 = some (ringIndex i % points + 1) :=
      addChecked?_one (by omega)
    simp [fanTriangle?, fanTriangle, hfirst, modChecked?, hzero, hlast, hsecond]
  · rw [fanTriangle, hsecond, hthird]

theorem indices_mesh (s : StarShape) (hpoints : s.points ≠ 65535) :
    s.mesh.indices = corners (ringTriangles s.points.toNat) := by
  have htriangles : ∀ i ∈ List.range s.points.toNat, fanTriangle s.points (.ofNat i) =
      [0, ringIndex i, ringIndex ((i + 1) % s.points.toNat)] := fun i hi =>
    (fanTriangle?_eq hpoints (List.mem_range.mp hi)).2
  rw [StarShape.mesh, List.flatMap_congr htriangles, corners, ringTriangles, List.flatMap_map]

theorem indices_generate {s : StarShape} {mesh : Mesh} (h : s.generate = .ok mesh) :
    mesh.indices = corners (ringTriangles s.points.toNat) := by
  rw [StarShape.generate] at h
  split at h
  · cases h
  · rename_i hgood
    cases h
    exact indices_mesh s (not_or.mp hgood).2

theorem mapM_eq_some_map {α β : Type} {f : α → Option β} {g : α → β} {l : List α}
    (h : ∀ a ∈ l, f a = some (g a)) : l.mapM f = some (l.map g) := by
  induction l with
  | nil => rfl
  | cons a rest ih =>
      obtain ⟨ha, hrest⟩ := List.forall_mem_cons.mp h
      simp [List.mapM_cons, ha, ih hrest]

/-- All indices can be computed in sixteen bits without wrapping and without a division by zero. -/
theorem fanIndices?_eq (s : StarShape) (hpoints : s.points ≠ 65535) :
    fanIndices? s.points = some s.mesh.indices := by
  have htriangles : ∀ i ∈ List.range s.points.toNat,
      fanTriangle? s.points (.ofNat i) = some (fanTriangle s.points (.ofNat i)) := fun i hi =>
    (fanTriangle?_eq hpoints (List.mem_range.mp hi)).1
  simp [fanIndices?, mapM_eq_some_map htriangles, StarShape.mesh, List.flatMap_def]

/-- A star cannot be generated if it has less than three points on its ring or more than indices can name.
Every other star has a vertex for its centre and for each of the points, and triangles that close around the
centre; no index is computed by wrapping or from a division by zero, and each is that of a vertex. -/
theorem generate_closedFan (s : StarShape) :
    (∀ e, s.generate = .error e ↔
      (s.points < 3 ∨ s.points = 65535) ∧ e = .badRingPoints s.points) ∧
    (¬ (s.points < 3 ∨ s.points = 65535) → ∃ mesh triangles, s.generate = .ok mesh ∧
      fanIndices? s.points = some mesh.indices ∧
      mesh.vertices.length = s.points.toNat + 1 ∧ mesh.indices.length = 3 * s.points.toNat ∧
      (∀ i ∈ mesh.indices, i.toNat < mesh.vertices.length) ∧
      inThrees mesh.indices = some triangles ∧ ClosedFan s.points.toNat triangles) := by
  constructor
  · intro e
    rw [StarShape.generate]
    split
    · rename_i hbad
      simp [hbad, eq_comm]
    · rename_i hgood
      simp [hgood]
  · intro hgood
    obtain ⟨hmany, hpoints⟩ := not_or.mp hgood
    have hn : 3 ≤ s.points.toNat := Nat.le_of_not_lt fun h => hmany (UInt16.lt_iff_toNat_lt.mpr h)
    have hfan := closedFan_ringTriangles hn (toNat_lt_of_ne hpoints)
    have hindices := indices_mesh s hpoints
    have hvertices : s.mesh.vertices.length = s.points.toNat + 1 := by simp [StarShape.mesh]
    refine ⟨s.mesh, ringTriangles s.points.toNat, if_neg hgood, fanIndices?_eq s hpoints, hvertices, ?_, ?_,
      inThrees_eq_some_iff.mpr hindices, hfan⟩
    · rw [hindices, length_corners, ringTriangles, List.length_map, List.length_range]
    · intro i hi
      rw [hindices] at hi
      rw [hvertices]
      exact Nat.lt_succ_of_le (hfan.toNat_le hi)

/-- The largest ring whose points indices can name. -/
theorem generate_largest : ∃ mesh triangles, (StarShape.mk 65534 0.5 1.0 0.4).generate = .ok mesh ∧
    fanIndices? 65534 = some mesh.indices ∧ mesh.vertices.length = 65535 ∧
    mesh.indices.length = 196602 ∧ (∀ i ∈ mesh.indices, i.toNat < mesh.vertices.length) ∧
    inThrees mesh.indices = some triangles ∧ ClosedFan 65534 triangles :=
  (generate_closedFan ⟨65534, 0.5, 1.0, 0.4⟩).2 (by decide)

end DemoScaffold
