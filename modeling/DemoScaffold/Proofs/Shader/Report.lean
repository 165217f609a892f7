import DemoScaffold.Proofs.Shader.Scan
import DemoScaffold.Proofs.Text.Blank
import DemoScaffold.Proofs.Text.Encoding
import DemoScaffold.Proofs.Text.Lines

/-!
# Reading a report back

How a line of a report begins tells a path from a flagged line, whatever the path begins with, and neither
goes beyond its line. So what a report shows of the hits can be read off it (`readReport_rawReport`). A path
that is no UTF-8 is not shown as it is, so two of them can have one report (`not_rawReport_inj`); hits whose
paths are UTF-8 have different reports if they differ (`rawReport_inj`).
-/

namespace DemoScaffold

variable {hits others : List RawHit}

/-! ## Lines of a report -/

theorem feed_notMem_of_mem_scanText {s line : List Char} (h : line ∈ scanText s) : '\n' ∉ line := by
  obtain ⟨full, hfull, rfl⟩ := List.mem_map.mp (List.mem_of_mem_filter h)
  exact fun hfeed => Text.feed_notMem_of_mem_lines hfull (Text.trim_subset full hfeed)

namespace RawHit

variable {hit : RawHit}

/-- The path is the UTF-8 of a text without line feeds, and the lines are the flagged lines of some
text. -/
structure Reportable (hit : RawHit) : Prop where
  path : ∃ s, hit.path = Text.Utf8.encode s ∧ '\n' ∉ s
  lines : ∃ s, hit.lines = (scanText s).map String.ofList

/-- What a report shows of a hit. -/
def shown (hit : RawHit) : ShaderHit :=
  ⟨⟨String.ofList (Text.Utf8.decodeLossy hit.path)⟩, hit.lines⟩

theorem toList_reportLines (hit : RawHit) : hit.reportLines.map String.toList =
    ('#' :: ' ' :: Text.Utf8.decodeLossy hit.path) :: hit.lines.map (' ' :: ' ' :: String.toList ·) := by
  simp [reportLines, String.toList_append]

theorem Reportable.feed_notMem (h : hit.Reportable) :
    ∀ l ∈ hit.reportLines.map String.toList, '\n' ∉ l := by
  obtain ⟨path, hpath, hfeed⟩ := h.path
  obtain ⟨s, hs⟩ := h.lines
  have hflagged : ∀ line ∈ hit.lines, '\n' ∉ line.toList := by
    rw [hs, List.forall_mem_map]
    intro line hline
    rw [String.toList_ofList]
    exact feed_notMem_of_mem_scanText hline
  rw [toList_reportLines, hpath, Text.Utf8.decodeLossy_encode, List.forall_mem_cons, List.forall_mem_map]
  exact ⟨by simpa using hfeed, fun line hline => by simpa using hflagged line hline⟩

/-- Nothing is lost of a path that is UTF-8. -/
theorem Reportable.raw_shown (h : hit.Reportable) : hit.shown.raw = hit := by
  obtain ⟨path, lines⟩ := hit
  obtain ⟨s, rfl, -⟩ := h.path
  simp [shown, ShaderHit.raw, Text.Utf8.decodeLossy_encode]

end RawHit

/-! ## The reader -/

/-- The flagged lines in front of the first path of a report, and the hits from there on. -/
def readHits : List (List Char) → List String × List ShaderHit
  | [] => ([], [])
  | ('#' :: ' ' :: path) :: rest =>
    let (lines, hits) := readHits rest
    ([], ⟨⟨String.ofList path⟩, lines⟩ :: hits)
  | (' ' :: ' ' :: line) :: rest =>
    let (lines, hits) := readHits rest
    (String.ofList line :: lines, hits)
  | _ :: rest => readHits rest

def readReport (report : String) : List ShaderHit :=
  (readHits (report.toList.splitOn '\n')).2

theorem readHits_lines (lines : List String) (rest : List (List Char)) :
    readHits (lines.map (' ' :: ' ' :: String.toList ·) ++ rest) =
      (lines ++ (readHits rest).1, (readHits rest).2) := by
  induction lines with
  | nil => rfl
  | cons line more ih =>
      rw [List.map_cons, List.cons_append, readHits, ih, String.ofList_toList]
      rfl

theorem readHits_reportLines (hit : RawHit) (rest : List (List Char)) :
    readHits (hit.reportLines.map String.toList ++ rest) =
      ([], ⟨hit.shown.path, hit.lines ++ (readHits rest).1⟩ :: (readHits rest).2) := by
  rw [RawHit.toList_reportLines, List.cons_append, readHits, readHits_lines]
  rfl

/-- Nothing is left in front of the first path of a report. -/
theorem readHits_report (hits : List RawHit) :
    readHits ((hits.flatMap RawHit.reportLines).map String.toList ++ [[]]) =
      ([], hits.map RawHit.shown) := by
  induction hits with
  | nil => rfl
  | cons hit rest ih =>
      rw [List.flatMap_cons, List.map_append, List.append_assoc, readHits_reportLines, ih,
        List.append_nil]
      rfl

/-- What a report shows can be read off it. -/
theorem readReport_rawReport (h : ∀ hit ∈ hits, hit.Reportable) :
    readReport (rawReport hits) = hits.map RawHit.shown := by
  have hfeed : ∀ l ∈ (hits.flatMap RawHit.reportLines).map String.toList, '\n' ∉ l := by
    rw [List.map_flatMap, List.forall_mem_flatMap]
    exact fun hit hhit => (h hit hhit).feed_notMem
  rw [readReport, rawReport, Text.toList_join_feed, Text.splitOn_unlines hfeed, readHits_report]

theorem raw_readReport (h : ∀ hit ∈ hits, hit.Reportable) :
    (readReport (rawReport hits)).map ShaderHit.raw = hits := by
  rw [readReport_rawReport h, List.map_map]
  exact (List.map_congr_left fun hit hhit => (h hit hhit).raw_shown).trans (List.map_id hits)

/-- Two lists of hits whose paths are UTF-8 have the same report only if they are the same: the same paths
in the same order, each with the same lines. -/
theorem rawReport_inj (h : ∀ hit ∈ hits, hit.Reportable) (h' : ∀ hit ∈ others, hit.Reportable) :
    rawReport hits = rawReport others ↔ hits = others := by
  constructor
  · intro heq
    rw [← raw_readReport h, heq, raw_readReport h']
  · rintro rfl
    rfl

/-- A path can look like a flagged line, and what looks like two lines can be one. -/
theorem rawReport_ne :
    rawReport [⟨Text.Utf8.encode "# a".toList, ["A=\r1"]⟩, ⟨Text.Utf8.encode "  B=2".toList, []⟩] ≠
      rawReport [⟨Text.Utf8.encode "# a".toList, ["A=\r1", "B=2"]⟩] := by
  refine mt (rawReport_inj (List.forall_mem_cons.mpr ⟨?_, List.forall_mem_singleton.mpr ?_⟩)
    (List.forall_mem_singleton.mpr ?_)).mp (by decide)
  · exact ⟨⟨"# a".toList, rfl, by decide⟩, "A=\r1".toList, by decide⟩
  · exact ⟨⟨"  B=2".toList, rfl, by decide⟩, [], rfl⟩
  · exact ⟨⟨"# a".toList, rfl, by decide⟩, "A=\r1\nB=2".toList, by decide⟩

/-- A file whose name is Latin-1 is shown like one whose name has U+FFFD in it. So it is not enough that
paths have no line feed in them. -/
theorem not_rawReport_inj :
    ¬ ∀ hits others : List RawHit,
      (∀ hit ∈ hits ++ others, 0x0A ∉ hit.path ∧ ∃ s, hit.lines = (scanText s).map String.ofList) →
      rawReport hits = rawReport others → hits = others := by
  intro h
  let latin : RawHit := ⟨0x61 :: 0xE8 :: Text.Utf8.encode ".hlsl".toList, []⟩
  let replaced : RawHit := ⟨Text.Utf8.encode "a\uFFFD.hlsl".toList, []⟩
  have hsame : [latin] = [replaced] := by
    refine h _ _ (fun hit hhit => ?_) (by decide)
    obtain rfl | rfl : hit = latin ∨ hit = replaced := by simpa using hhit
    · exact ⟨by decide, [], rfl⟩
    · exact ⟨by decide, [], rfl⟩
  exact absurd hsame (by decide)

/-! ## Hits of a scan -/

theorem shown_raw (hit : ShaderHit) : hit.raw.shown = hit := by
  simp [RawHit.shown, ShaderHit.raw, Text.Utf8.decodeLossy_encode]

theorem reportable_raw {hit : ShaderHit} (hpath : '\n' ∉ hit.path.text.toList)
    (hlines : ∃ s, hit.lines = (scanText s).map String.ofList) : hit.raw.Reportable :=
  ⟨⟨hit.path.text.toList, rfl, hpath⟩, hlines⟩

namespace FileTree

variable {t : FileTree} {root : Path} {found : List ShaderHit}

/-- What a scan prints says what it has found. -/
theorem readReport_scanTree (hscan : (scanTree root : StateM FileTree _) t = (.ok found, t))
    (hpaths : ∀ hit ∈ found, '\n' ∉ hit.path.text.toList) : readReport (scanReport found) = found := by
  obtain ⟨-, -, rfl⟩ := scanTree_eq_ok_iff.mp hscan
  rw [scanReport, readReport_rawReport, List.map_map]
  · simp [Function.comp_def, shown_raw]
  · rw [List.forall_mem_map]
    intro hit hhit
    obtain ⟨p, hp, rfl⟩ := List.mem_map.mp hhit
    exact reportable_raw (hpaths _ hhit) ⟨_, rfl⟩

end FileTree

end DemoScaffold
