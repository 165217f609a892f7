import DemoScaffold.Proofs.Star.Coordinate
import DemoScaffold.Proofs.Star.Fan
import DemoScaffold.Proofs.Text.Lines
import Mathlib.Data.List.Forall2

/-!
# Reading the tables of a mesh back

The source text of a mesh has a line for each vertex and for each triangle. Both tables can be read off it with
the sizes that they declare (`readSource_source`), so the text determines the mesh but for the digits of
its coordinates that are not written (`source_determines`).
-/

namespace DemoScaffold

open Number

/-! ## The reader -/

/-- A table of a source text: the size that its head declares, and its rows. -/
structure SourceTable where
  size : ℕ
  rows : List (List Char)
deriving DecidableEq

/-- The size in the brackets of a head, which can be given by its factors. -/
def declaredSize (head : List Char) : ℕ :=
  let size := (head.dropWhile (· ≠ '[')).tail.takeWhile (· ≠ ']')
  ((size.splitOn '*').map fun factor => ofDigits (factor.filter Char.isDigit)).prod

def isTableEnd (line : List Char) : Bool :=
  line = "\x7d;".toList

/-- The first table of some lines, and the lines behind it. -/
def readTable : List (List Char) → SourceTable × List (List Char)
  | [] => (⟨0, []⟩, [])
  | head :: lines =>
    (⟨declaredSize head, lines.takeWhile (!isTableEnd ·)⟩, (lines.dropWhile (!isTableEnd ·)).tail)

/-- The tables of the vertices and of the indices. -/
def readSource (text : String) : SourceTable × SourceTable :=
  let (vertices, behind) := readTable (text.toList.splitOn '\n')
  (vertices, (readTable behind).1)

/-- The entries of a row: each is followed by a comma. -/
def rowEntries (row : List Char) : List (List Char) :=
  (row.splitOn ',').dropLast

def readIndex (entry : List Char) : ℕ :=
  ofDigits (entry.filter Char.isDigit)

/-- The texts of the first two coordinates of a vertex. -/
def readCoordinates (row : List Char) : List Char × List Char :=
  match rowEntries row with
  | x :: y :: _ => ((x.drop 9).dropLast, (y.drop 1).dropLast)
  | _ => ([], [])

/-! ## Rows -/

theorem rowEntries_append {entry : List Char} (h : ',' ∉ entry) (rest : List Char) :
    rowEntries (entry ++ ',' :: rest) = entry :: rowEntries rest := by
  rw [rowEntries, List.splitOn_append_cons_self_of_not_mem h,
    List.dropLast_cons_of_ne_nil (List.splitOn_ne_nil _ _), rowEntries]

theorem rowEntries_of_notMem {row : List Char} (h : ',' ∉ row) : rowEntries row = [] := by
  rw [rowEntries, List.splitOn_eq_singleton h, List.dropLast_singleton]

namespace Mesh

theorem vertexLine_eq (v : Vertex) : vertexLine v = ("  float3(".toList ++ coordinateText v.x ++ ['f']) ++
    ',' :: ((' ' :: coordinateText v.y ++ ['f']) ++ ',' :: (" 0.0f)".toList ++ [','])) := by
  change "  float3(".toList ++ coordinateText v.x ++ ['f', ',', ' '] ++ coordinateText v.y ++
    'f' :: ',' :: (" 0.0f)".toList ++ [',']) = _
  simp only [List.append_assoc, List.cons_append, List.nil_append]

theorem rowEntries_vertexLine (v : Vertex) : rowEntries (vertexLine v) =
    ["  float3(".toList ++ coordinateText v.x ++ ['f'], ' ' :: coordinateText v.y ++ ['f'],
      " 0.0f)".toList] := by
  have hcomma (bits : UInt32) : ',' ∉ coordinateText bits :=
    notMem_coordinateText (by decide) (by decide) bits
  have hx : ',' ∉ "  float3(".toList ++ coordinateText v.x ++ ['f'] := by simp [hcomma]
  have hy : ',' ∉ ' ' :: coordinateText v.y ++ ['f'] := by simp [hcomma]
  have hz : ',' ∉ " 0.0f)".toList := by decide
  rw [vertexLine_eq, rowEntries_append hx, rowEntries_append hy, rowEntries_append hz,
    rowEntries_of_notMem List.not_mem_nil]

theorem readCoordinates_vertexLine (v : Vertex) :
    readCoordinates (vertexLine v) = (coordinateText v.x, coordinateText v.y) := by
  rw [readCoordinates, rowEntries_vertexLine]
  simp

theorem notMem_indexDigits {d : Char} (hd : d.isDigit = false) (i : UInt16) : d ∉ indexDigits i :=
  notMem_decimalDigits hd i.toNat

theorem rowEntries_triangleLine (t : UInt16 × UInt16 × UInt16) : rowEntries (triangleLine t) =
    [' ' :: ' ' :: indexDigits t.1, ' ' :: indexDigits t.2.1, ' ' :: indexDigits t.2.2] := by
  have hcomma (i : UInt16) : ',' ∉ indexDigits i := notMem_indexDigits (by decide) i
  have ha : ',' ∉ ' ' :: ' ' :: indexDigits t.1 := by simp [hcomma]
  have hb : ',' ∉ ' ' :: indexDigits t.2.1 := by simp [hcomma]
  have hc : ',' ∉ ' ' :: indexDigits t.2.2 := by simp [hcomma]
  have hline : triangleLine t = (' ' :: ' ' :: indexDigits t.1) ++
      ',' :: ((' ' :: indexDigits t.2.1) ++ ',' :: ((' ' :: indexDigits t.2.2) ++ ',' :: " //".toList)) := by
    simp [triangleLine]
  rw [hline, rowEntries_append ha, rowEntries_append hb, rowEntries_append hc,
    rowEntries_of_notMem (by decide)]

theorem readIndex_indexDigits {blanks : List Char} (h : blanks.filter Char.isDigit = []) (i : UInt16) :
    readIndex (blanks ++ indexDigits i) = i.toNat := by
  have hdigits : (indexDigits i).filter Char.isDigit = indexDigits i := filter_decimalDigits i.toNat
  rw [readIndex, List.filter_append, h, hdigits, List.nil_append]
  exact ofDigits_decimalDigits i.toNat

theorem readIndex_triangleLine (t : UInt16 × UInt16 × UInt16) :
    (rowEntries (triangleLine t)).map readIndex = [t.1.toNat, t.2.1.toNat, t.2.2.toNat] := by
  have hone : [' '].filter Char.isDigit = [] := by decide
  have htwo : [' ', ' '].filter Char.isDigit = [] := by decide
  rw [rowEntries_triangleLine]
  simp only [List.map_cons, List.map_nil]
  rw [← readIndex_indexDigits htwo t.1, ← readIndex_indexDigits hone t.2.1,
    ← readIndex_indexDigits hone t.2.2]
  rfl

theorem feed_notMem_vertexLine (v : Vertex) : '\n' ∉ vertexLine v := by
  have hx : '\n' ∉ coordinateText v.x := notMem_coordinateText (by decide) (by decide) v.x
  have hy : '\n' ∉ coordinateText v.y := notMem_coordinateText (by decide) (by decide) v.y
  rw [vertexLine_eq]
  simp [hx, hy]

theorem feed_notMem_triangleLine (t : UInt16 × UInt16 × UInt16) : '\n' ∉ triangleLine t := by
  have hdigits (i : UInt16) : '\n' ∉ indexDigits i := notMem_indexDigits (by decide) i
  simp [triangleLine, hdigits]

end Mesh

/-! ## Tables -/

theorem readTable_tableLines {rows : List (List Char)} (hrows : ∀ row ∈ rows, isTableEnd row = false)
    (head : String) (size : List Char) (rest : List (List Char)) :
    readTable (Mesh.tableLines head size rows ++ rest) =
      (⟨declaredSize (head.toList ++ ['['] ++ size ++ ']' :: " = \x7b".toList), rows⟩, rest) := by
  have hinside : ∀ row ∈ rows, (!isTableEnd row) = true := fun row hrow => by simp [hrows row hrow]
  have hend : (!isTableEnd "\x7d;".toList) = false := by decide
  have hlines : Mesh.tableLines head size rows ++ rest =
      (head.toList ++ ['['] ++ size ++ ']' :: " = \x7b".toList) :: (rows ++ "\x7d;".toList :: rest) := by
    simp [Mesh.tableLines]
  rw [hlines, readTable, takeWhile_stop hinside hend, dropWhile_stop hinside hend, List.tail_cons]

theorem declaredSize_head {head size : List Char} (hhead : '[' ∉ head) (hsize : ']' ∉ size)
    (rest : List Char) : declaredSize (head ++ ['['] ++ size ++ ']' :: rest) =
      ((size.splitOn '*').map fun factor => ofDigits (factor.filter Char.isDigit)).prod := by
  rw [declaredSize, List.append_assoc, List.append_assoc, List.singleton_append, dropWhile_ne hhead,
    List.tail_cons, takeWhile_ne hsize]

theorem declaredSize_number {head : List Char} (hhead : '[' ∉ head) (n : ℕ) (rest : List Char) :
    declaredSize (head ++ ['['] ++ decimalDigits n ++ ']' :: rest) = n := by
  rw [declaredSize_head hhead (notMem_decimalDigits (by decide) n),
    List.splitOn_eq_singleton (notMem_decimalDigits (by decide) n)]
  simp [filter_decimalDigits, ofDigits_decimalDigits]

theorem declaredSize_triples {head : List Char} (hhead : '[' ∉ head) (n : ℕ) (rest : List Char) :
    declaredSize (head ++ ['['] ++ ("3 * ".toList ++ decimalDigits n) ++ ']' :: rest) = 3 * n := by
  have hsize : ']' ∉ "3 * ".toList ++ decimalDigits n := by
    simp [notMem_decimalDigits (c := ']') (by decide) n]
  have hsplit : ("3 * ".toList ++ decimalDigits n).splitOn '*' = [['3', ' '], ' ' :: decimalDigits n] := by
    change (['3', ' '] ++ '*' :: (' ' :: decimalDigits n)).splitOn '*' = _
    have hfactor : '*' ∉ ' ' :: decimalDigits n := by
      simp [notMem_decimalDigits (c := '*') (by decide) n]
    rw [List.splitOn_append_cons_self_of_not_mem (by decide), List.splitOn_eq_singleton hfactor]
  have hthree : ofDigits ['3'] = 3 := by decide
  have hblank : (' ' :: decimalDigits n).filter Char.isDigit = decimalDigits n := by
    rw [List.filter_cons_of_neg (by decide), filter_decimalDigits]
  rw [declaredSize_head hhead hsize, hsplit]
  simp [hthree, hblank, ofDigits_decimalDigits]

/-! ## Meshes -/

namespace Mesh

variable {mesh other : Mesh} {text : String} {triangles : List (UInt16 × UInt16 × UInt16)}

def vertexTable (mesh : Mesh) : List (List Char) :=
  tableLines "FB_CONSTANT float3 STAR_VERTICES" (decimalDigits mesh.vertices.length)
    (mesh.vertices.map vertexLine)

def indexTable (mesh : Mesh) (triangles : List (UInt16 × UInt16 × UInt16)) : List (List Char) :=
  tableLines "FB_CONSTANT uint16_t STAR_INDICES" ("3 * ".toList ++ decimalDigits mesh.triangleCount)
    (triangles.map triangleLine)

theorem source?_of_inThrees (h : inThrees mesh.indices = some triangles) : mesh.source? =
    some (String.ofList (Text.unlines (mesh.vertexTable ++ mesh.indexTable triangles))) := by
  simp [source?, sourceLines?, h, vertexTable, indexTable]

theorem source?_eq_none_iff : mesh.source? = none ↔ ¬ 3 ∣ mesh.indices.length := by
  rw [← exists_inThrees_iff]
  cases h : inThrees mesh.indices with
  | none => simp [source?, sourceLines?, h]
  | some triangles => simp [source?_of_inThrees h]

theorem inThrees_of_source? (h : mesh.source? = some text) :
    ∃ triangles, inThrees mesh.indices = some triangles := by
  cases hthrees : inThrees mesh.indices with
  | none => simp [source?, sourceLines?, hthrees] at h
  | some triangles => exact ⟨triangles, rfl⟩

theorem feed_notMem_tableLines {head : String} {size : List Char} {rows : List (List Char)}
    (hhead : '\n' ∉ head.toList) (hsize : '\n' ∉ size) (hrows : ∀ row ∈ rows, '\n' ∉ row) :
    ∀ line ∈ tableLines head size rows, '\n' ∉ line := by
  intro line hline
  simp only [tableLines, List.mem_append, List.mem_cons, List.not_mem_nil, or_false] at hline
  rcases hline with (rfl | hline) | rfl
  · simp [hhead, hsize]
  · exact hrows line hline
  · decide

theorem isTableEnd_of_head? {row : List Char} (h : row.head? = some ' ') : isTableEnd row = false := by
  apply decide_eq_false
  rintro rfl
  cases h

/-- Both tables are read as they were written. -/
theorem readSource_source (h : inThrees mesh.indices = some triangles) (hsource : mesh.source? = some text) :
    readSource text = (⟨mesh.vertices.length, mesh.vertices.map vertexLine⟩,
      ⟨3 * triangles.length, triangles.map triangleLine⟩) := by
  have hcount : mesh.triangleCount = triangles.length := by
    rw [triangleCount, eq_corners_of_inThrees h, length_corners, Nat.mul_div_cancel_left _ (by decide)]
  have hlines : ∀ line ∈ mesh.vertexTable ++ mesh.indexTable triangles, '\n' ∉ line := by
    have hdigits (n : ℕ) : '\n' ∉ decimalDigits n := notMem_decimalDigits (by decide) n
    have hsize : '\n' ∉ "3 * ".toList ++ decimalDigits mesh.triangleCount := by simp [hdigits]
    rw [List.forall_mem_append]
    constructor
    · exact feed_notMem_tableLines (by decide) (hdigits _)
        (List.forall_mem_map.mpr fun v _ => feed_notMem_vertexLine v)
    · exact feed_notMem_tableLines (by decide) hsize
        (List.forall_mem_map.mpr fun t _ => feed_notMem_triangleLine t)
  have hvertices : ∀ row ∈ mesh.vertices.map vertexLine, isTableEnd row = false :=
    List.forall_mem_map.mpr fun v _ => isTableEnd_of_head? (by rw [vertexLine_eq]; rfl)
  have htriangles : ∀ row ∈ triangles.map triangleLine, isTableEnd row = false :=
    List.forall_mem_map.mpr fun t _ => isTableEnd_of_head? rfl
  rw [source?_of_inThrees h, Option.some.injEq] at hsource
  rw [← hsource, readSource, String.toList_ofList, Text.splitOn_unlines hlines, List.append_assoc, vertexTable,
    readTable_tableLines hvertices, declaredSize_number (by decide)]
  simp only
  rw [indexTable, readTable_tableLines htriangles, declaredSize_triples (by decide), hcount]

/-- The coordinates of a vertex as they are written. -/
def printed (v : Vertex) : List Char × List Char :=
  (coordinateText v.x, coordinateText v.y)

def PrintedAlike (v w : Vertex) : Prop :=
  coordinateText v.x = coordinateText w.x ∧ coordinateText v.y = coordinateText w.y

theorem map_readCoordinates (vertices : List Vertex) :
    (vertices.map vertexLine).map readCoordinates = vertices.map printed := by
  simp [printed, readCoordinates_vertexLine]

theorem map_printed_eq_iff {vertices others : List Vertex} :
    others.map printed = vertices.map printed ↔ List.Forall₂ PrintedAlike others vertices := by
  rw [← List.forall₂_eq_eq_eq, List.forall₂_map_left_iff, List.forall₂_map_right_iff]
  simp only [printed, Prod.mk.injEq]
  exact Iff.rfl

theorem flatMap_rowEntries (triangles : List (UInt16 × UInt16 × UInt16)) :
    ((triangles.map triangleLine).flatMap rowEntries).map readIndex =
      (corners triangles).map UInt16.toNat := by
  simp [List.flatMap_map, List.map_flatMap, readIndex_triangleLine, corners]

theorem map_vertexLine_congr {vertices others : List Vertex} (h : others.map printed = vertices.map printed) :
    others.map vertexLine = vertices.map vertexLine := by
  have hline : vertexLine = (fun p : List Char × List Char => ("  float3(".toList ++ p.1 ++ ['f']) ++
      ',' :: ((' ' :: p.2 ++ ['f']) ++ ',' :: (" 0.0f)".toList ++ [',']))) ∘ printed :=
    funext vertexLine_eq
  rw [hline, ← List.map_map, ← List.map_map, h]

/-- Two meshes have the same source text exactly if they have the same indices and their vertices are written
alike. -/
theorem source?_eq_iff (hsource : mesh.source? = some text) : other.source? = some text ↔
    other.indices = mesh.indices ∧ other.vertices.map printed = mesh.vertices.map printed := by
  obtain ⟨triangles, hthrees⟩ := inThrees_of_source? hsource
  have hread := readSource_source hthrees hsource
  constructor
  · intro hother
    obtain ⟨others, hothers⟩ := inThrees_of_source? hother
    have heq := (readSource_source hothers hother).symm.trans hread
    simp only [Prod.mk.injEq, SourceTable.mk.injEq] at heq
    obtain ⟨⟨-, hvertices⟩, -, htriangles⟩ := heq
    constructor
    · have hindices := congrArg (fun rows => (rows.flatMap rowEntries).map readIndex) htriangles
      simp only [flatMap_rowEntries] at hindices
      rw [eq_corners_of_inThrees hothers, eq_corners_of_inThrees hthrees]
      exact List.map_injective_iff.mpr (fun _ _ => UInt16.toNat_inj.mp) hindices
    · have hcoordinates := congrArg (List.map readCoordinates) hvertices
      rwa [map_readCoordinates, map_readCoordinates] at hcoordinates
  · rintro ⟨hindices, hprinted⟩
    have hcount : other.vertices.length = mesh.vertices.length := by
      simpa using congrArg List.length hprinted
    rw [source?_of_inThrees hthrees] at hsource
    rw [source?_of_inThrees (hindices ▸ hthrees), ← hsource]
    simp only [vertexTable, indexTable, triangleCount, hindices, hcount, map_vertexLine_congr hprinted]

/-- A mesh has a source text exactly if its indices make triangles, as those of all stars do. The text has a row
for each vertex and an entry for each index, and declares as many. It determines the indices, the number of
vertices and, for each of them, the coordinates as they are written, and nothing else. -/
theorem source_determines (mesh : Mesh) :
    (¬ 3 ∣ mesh.indices.length → mesh.source? = none) ∧
    (3 ∣ mesh.indices.length → ∃ text, mesh.source? = some text ∧
      (readSource text).1.rows.length = mesh.vertices.length ∧
      ((readSource text).2.rows.flatMap rowEntries).length = mesh.indices.length ∧
      (readSource text).1.size = (readSource text).1.rows.length ∧
      (readSource text).2.size = ((readSource text).2.rows.flatMap rowEntries).length ∧
      ∀ other : Mesh, other.source? = some text ↔
        other.indices = mesh.indices ∧ other.vertices.length = mesh.vertices.length ∧
        List.Forall₂ PrintedAlike other.vertices mesh.vertices) ∧
    ∀ (s : StarShape) (star : Mesh), s.generate = .ok star → 3 ∣ star.indices.length := by
  refine ⟨source?_eq_none_iff.mpr, ?_, ?_⟩
  · intro hdvd
    obtain ⟨triangles, hthrees⟩ := exists_inThrees_iff.mpr hdvd
    have hsource := source?_of_inThrees hthrees
    have hentries := congrArg List.length (flatMap_rowEntries triangles)
    rw [List.length_map, List.length_map, length_corners] at hentries
    refine ⟨_, hsource, ?_⟩
    rw [readSource_source hthrees hsource, hentries, List.length_map]
    refine ⟨rfl, ?_, rfl, rfl, ?_⟩
    · rw [eq_corners_of_inThrees hthrees, length_corners]
    · intro other
      rw [source?_eq_iff hsource, map_printed_eq_iff]
      constructor
      · rintro ⟨hindices, hprinted⟩
        exact ⟨hindices, hprinted.length_eq, hprinted⟩
      · rintro ⟨hindices, -, hprinted⟩
        exact ⟨hindices, hprinted⟩
  · intro s star hstar
    rw [indices_generate hstar, length_corners]
    exact Nat.dvd_mul_right 3 _

/-- Coordinates that are infinite, as large as can be, no number and a zero with a sign. -/
def extremes : Mesh :=
  ⟨[⟨0x7F800000, 0xFF7FFFFF, 0⟩, ⟨0x7FC00000, 0x80000000, 1⟩], [0, 1, 65535]⟩

theorem extremes_determined : ∃ text, extremes.source? = some text ∧
    (readSource text).1.rows.length = 2 ∧ ((readSource text).2.rows.flatMap rowEntries).length = 3 ∧
    (readSource text).1.size = (readSource text).1.rows.length ∧
    (readSource text).2.size = ((readSource text).2.rows.flatMap rowEntries).length ∧
    ∀ other : Mesh, other.source? = some text ↔
      other.indices = [0, 1, 65535] ∧ other.vertices.length = 2 ∧
      List.Forall₂ PrintedAlike other.vertices extremes.vertices :=
  (source_determines extremes).2.1 (by decide)

end Mesh

end DemoScaffold
