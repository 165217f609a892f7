import DemoScaffold.Proofs.FileTree.Changes
import DemoScaffold.Proofs.Shader.Scan
import DemoScaffold.Proofs.Text.Blank
import DemoScaffold.Proofs.Text.Encoding
import DemoScaffold.Proofs.Text.Lines
import Mathlib.Data.List.Nodup

/-!
# What a line of a shader can change in a report

A file is scanned line by line, from its bytes on: what is reported of two pieces with a line feed between
them is what is reported of each (`scanBytes_append_feed`), also where a piece is no text. So other bytes in
a file change what is reported of their own line, and nothing else of the report (`scanTree_lineLocal`).
-/

namespace DemoScaffold

/-! ## Texts -/

theorem scanText_of_notMem {l : List Char} (h : '\n' ∉ l) :
    scanText l = [Text.trim l].filter isFlagged := by
  by_cases hempty : l = []
  · rw [hempty]
    rfl
  · rw [scanText, Text.lines_of_notMem h hempty, List.map_singleton]

/-- That the last line of a text is ended makes no difference. -/
theorem scanText_concat_feed (s : List Char) : scanText (s ++ ['\n']) = scanText s := by
  -- Only the last line matters; a carriage return at its end is trimmed in either text.
  have hline : ∀ l : List Char, '\n' ∉ l → scanText (l ++ ['\n']) = scanText l := by
    intro l hl
    rw [scanText_of_notMem hl, scanText]
    by_cases hreturn : l.getLast? = some '\r'
    · obtain ⟨front, rfl⟩ := List.getLast?_eq_some_iff.mp hreturn
      have hfront : '\n' ∉ front := fun h => hl (List.mem_append_left _ h)
      rw [List.append_assoc, List.singleton_append, Text.lines_append_return hfront,
        Text.trim_concat (by decide)]
      rfl
    · rw [Text.lines_append ⟨hl, hreturn⟩]
      rfl
  by_cases hs : '\n' ∈ s
  · obtain ⟨last, front, hreverse, hlast⟩ := List.eq_append_cons_of_mem (List.mem_reverse.mpr hs)
    have hsplit : s = front.reverse ++ '\n' :: last.reverse := by
      simpa using congrArg List.reverse hreverse
    have hmore := hline last.reverse (by simpa using hlast)
    simp only [scanText] at hmore ⊢
    rw [hsplit, List.append_assoc, List.cons_append, Text.lines_append_feed,
      Text.lines_append_feed _ last.reverse, List.map_append, List.filter_append, hmore,
      List.map_append, List.filter_append]
  · exact hline s hs

theorem scanText_append_feed (s rest : List Char) :
    scanText (s ++ '\n' :: rest) = scanText s ++ scanText rest := by
  rw [← scanText_concat_feed s]
  simp only [scanText]
  rw [Text.lines_append_feed, List.map_append, List.filter_append]

/-- Bytes are scanned line by line, whatever they are. -/
theorem scanBytes_append_feed (first second : List UInt8) :
    scanBytes (first ++ 0x0A :: second) = scanBytes first ++ scanBytes second := by
  have hfeed : Char.ofNat (0x0A : UInt8).toNat = '\n' := by decide
  rw [scanBytes, Text.Utf8.decodeLossy_append_ascii (by decide), hfeed, scanText_append_feed,
    List.map_append]
  rfl

/-! ## Other bytes in a file -/

namespace FileTree

variable {t : FileTree} {dir l : Location} {name : String} {bytes old : List UInt8} {p root : Path}
  {hits : List ShaderHit} {hit : ShaderHit}

theorem canSet_of_file (h : t.lookup (dir ++ [name]) = some (.file old)) (bytes : List UInt8) :
    t.CanSet dir name (.file bytes) := by
  have hfound : t.lookup (dir ++ [name]) ≠ none := by simp [h]
  refine ⟨?_, isName_of_lookup hfound (by simp), .inr ⟨⟨old, h⟩, bytes, rfl⟩⟩
  simpa using lookup_dropLast hfound

theorem lookup_replace (h : t.lookup (dir ++ [name]) = some (.file old)) (bytes : List UInt8)
    (l : Location) : (t.set dir name (.file bytes)).lookup l =
      if l = dir ++ [name] then some (.file bytes) else t.lookup l :=
  lookup_set (canSet_of_file h bytes) l

theorem keeps_of_replace (h : t.lookup (dir ++ [name]) = some (.file old)) (bytes : List UInt8) :
    (t.set dir name (.file bytes)).Keeps t := by
  constructor
  · intro l hl
    exact lookup_set_file_eq_directory.mp hl
  · intro l new hl
    rw [lookup_replace h] at hl
    split at hl
    · rename_i heq
      exact ⟨old, heq ▸ h⟩
    · exact ⟨new, hl⟩
  · exact (room_set t dir name (.file bytes)).symm

theorem locate_replace_iff (h : t.lookup (dir ++ [name]) = some (.file old)) (bytes : List UInt8) :
    (t.set dir name (.file bytes)).locate p = .ok l ↔ t.locate p = .ok l :=
  ⟨(keeps_of_replace h bytes).locate, (Keeps.set t dir name (.file bytes)).locate⟩

theorem occupied_iff : t.occupied p = true ↔ ∃ l, t.locate p = .ok l := by
  constructor
  · intro h
    by_contra hnone
    rw [occupied_eq_false_iff.mpr fun l hl => hnone ⟨l, hl⟩] at h
    cases h
  · rintro ⟨l, hl⟩
    exact occupied_of_locate hl

theorem filterMap_setEntry {α : Type} {g : Location × Entry → Option α} {e e' : Entry}
    {es : List (Location × Entry)} (h : entryAt l es = some e) (hg : g (l, e') = g (l, e)) :
    (setEntry l e' es).filterMap g = es.filterMap g := by
  induction es with
  | nil => cases h
  | cons x rest ih =>
      obtain ⟨k, old⟩ := x
      by_cases hk : k = l
      · rw [entryAt, if_pos hk, Option.some.injEq] at h
        rw [setEntry, if_pos hk, List.filterMap_cons, List.filterMap_cons, hg, ← hk, ← h]
      · rw [entryAt, if_neg hk] at h
        rw [setEntry, if_neg hk, List.filterMap_cons, List.filterMap_cons, ih h]

theorem filesUnder_replace (h : t.lookup (dir ++ [name]) = some (.file old)) (bytes : List UInt8) :
    (t.set dir name (.file bytes)).filesUnder root = t.filesUnder root := by
  cases htop : t.locate root with
  | error fault =>
      cases htop' : (t.set dir name (.file bytes)).locate root with
      | error fault' => simp only [filesUnder, htop, htop']
      | ok top =>
          rw [(locate_replace_iff h bytes).mp htop'] at htop
          cases htop
  | ok top =>
      simp only [filesUnder, htop, (locate_replace_iff h bytes).mpr htop, lookup_replace h]
      by_cases hself : top = dir ++ [name]
      · simp only [hself, h, if_pos]
      · simp only [if_neg hself]
        split
        · rfl
        · rfl
        · have hentry : entryAt (dir ++ [name]) t.entries = some (.file old) := by
            rw [← lookup_of_ne_nil t (by simp), h]
          rw [set, dif_pos (canSet_of_file h bytes)]
          exact filterMap_setEntry hentry (by simp)

theorem exists_locate_of_fileBytes (h : t.fileBytes p = .ok bytes) :
    ∃ l, t.locate p = .ok l ∧ t.lookup l = some (.file bytes) := by
  cases hl : t.locate p with
  | error fault => simp [fileBytes, find, hl, bind, Except.bind] at h
  | ok l =>
      cases hfound : t.lookup l with
      | none => simp [fileBytes, find, hl, hfound, bind, Except.bind] at h
      | some e =>
          cases e with
          | directory => simp [fileBytes, find, hl, hfound, bind, Except.bind] at h
          | file found =>
              rw [fileBytes_of_locate hl hfound, Except.ok.injEq] at h
              exact ⟨l, rfl, by rw [← h, hfound]⟩

theorem fileBytes_replace_self (h : t.lookup (dir ++ [name]) = some (.file old)) (bytes : List UInt8)
    (hp : t.locate p = .ok (dir ++ [name])) :
    (t.set dir name (.file bytes)).fileBytes p = .ok bytes :=
  fileBytes_of_locate ((locate_replace_iff h bytes).mpr hp) (by rw [lookup_replace h, if_pos rfl])

theorem fileBytes_replace_of_ne (h : t.lookup (dir ++ [name]) = some (.file old)) (bytes : List UInt8)
    {found : List UInt8} (hfound : t.fileBytes p = .ok found) (hp : t.locate p ≠ .ok (dir ++ [name])) :
    (t.set dir name (.file bytes)).fileBytes p = .ok found := by
  obtain ⟨l, hl, hfile⟩ := exists_locate_of_fileBytes hfound
  have hne : l ≠ dir ++ [name] := fun heq => hp (heq ▸ hl)
  exact fileBytes_of_locate ((locate_replace_iff h bytes).mpr hl) (by rw [lookup_replace h, if_neg hne, hfile])

/-! ## Reports -/

theorem nodup_shaderPaths (t : FileTree) (root : Path) : (t.shaders root).Nodup := by
  have hkeys := nodup_shaders (List.Perm.refl (t.filesUnder root))
  exact (List.mergeSort_perm _ _).nodup_iff.mpr (List.Nodup.of_map _ hkeys)

/-- No other path of a scan leads to the same file. -/
theorem locate_ne_of_mem_shaders {before after : List Path} (hsplit : t.shaders root = before ++ p :: after)
    (hp : t.locate p = .ok l) : ∀ q ∈ before ++ after, t.locate q ≠ .ok l := by
  have hwalk : ∀ q ∈ t.shaders root, q ∈ t.filesUnder root := fun q hq =>
    List.mem_of_mem_filter (List.mem_mergeSort.mp hq)
  have hnodup := nodup_shaderPaths t root
  rw [hsplit, List.nodup_middle, List.nodup_cons] at hnodup
  rw [hsplit] at hwalk
  intro q hq hql
  have hmem : q ∈ before ++ p :: after := by
    rcases List.mem_append.mp hq with h | h <;> simp [h]
  have heq := eq_of_mem_filesUnder (hwalk q hmem) (hwalk p (by simp)) hql hp
  exact hnodup.1 (heq ▸ hq)

/-- Other bytes in a file change what is reported of this file, and nothing else. -/
theorem scanTree_replace {before after : List Path} (h : t.lookup (dir ++ [name]) = some (.file old))
    (hroot : t.occupied root = true)
    (hread : ∀ q ∈ t.shaders root, ∃ bytes, t.fileBytes q = .ok bytes)
    (hsplit : t.shaders root = before ++ p :: after) (hp : t.locate p = .ok (dir ++ [name]))
    (bytes : List UInt8) :
    (scanTree root : StateM FileTree _) (t.set dir name (.file bytes)) =
      (.ok (before.map t.hitAt ++ ⟨p, scanBytes bytes⟩ :: after.map t.hitAt),
        t.set dir name (.file bytes)) := by
  have hself := fileBytes_replace_self h bytes hp
  have hothers : ∀ q ∈ before ++ after, ∃ found, t.fileBytes q = .ok found ∧
      (t.set dir name (.file bytes)).fileBytes q = .ok found := by
    intro q hq
    have hmem : q ∈ t.shaders root := by
      rw [hsplit]
      exact (List.sublist_cons_self p after).append_left before |>.subset hq
    obtain ⟨found, hfound⟩ := hread q hmem
    have hne := locate_ne_of_mem_shaders hsplit hp q hq
    exact ⟨found, hfound, fileBytes_replace_of_ne h bytes hfound hne⟩
  have hhits : ∀ q ∈ before ++ after, (t.set dir name (.file bytes)).hitAt q = t.hitAt q := by
    intro q hq
    obtain ⟨found, hfound, hfound'⟩ := hothers q hq
    rw [hitAt_of_fileBytes hfound, hitAt_of_fileBytes hfound']
  have hshaders : (t.set dir name (.file bytes)).shaders root = before ++ p :: after := by
    rw [shaders, filesUnder_replace h, ← shaders, hsplit]
  obtain ⟨top, htop⟩ := occupied_iff.mp hroot
  rw [List.forall_mem_append] at hothers hhits
  refine scanTree_eq_ok_iff.mpr ⟨occupied_iff.mpr ⟨top, (locate_replace_iff h bytes).mpr htop⟩, ?_, ?_⟩
  · rw [hshaders, List.forall_mem_append, List.forall_mem_cons]
    exact ⟨fun q hq => (hothers.1 q hq).imp fun _ => And.right, ⟨bytes, hself⟩,
      fun q hq => (hothers.2 q hq).imp fun _ => And.right⟩
  · rw [hshaders, List.map_append, List.map_cons, hitAt_of_fileBytes hself,
      List.map_congr_left hhits.1, List.map_congr_left hhits.2]

/-- With other bytes in a file that is reported, the report is the same but for the lines of this file, and
these are the flagged lines of the bytes: those of what is in front of a line feed, and then those of what
follows it, whatever the bytes are. -/
theorem scanTree_lineLocal (hscan : (scanTree root : StateM FileTree _) t = (.ok hits, t))
    (hhit : hit ∈ hits) :
    ∃ dir name before after, t.locate hit.path = .ok (dir ++ [name]) ∧ hits = before ++ hit :: after ∧
      (∃ old, t.fileBytes hit.path = .ok old ∧ hit.lines = scanBytes old) ∧
      (∀ bytes, (t.set dir name (.file bytes)).fileBytes hit.path = .ok bytes ∧
        (scanTree root : StateM FileTree _) (t.set dir name (.file bytes)) =
          (.ok (before ++ ⟨hit.path, scanBytes bytes⟩ :: after), t.set dir name (.file bytes))) ∧
      ∀ first second, scanBytes (first ++ 0x0A :: second) = scanBytes first ++ scanBytes second := by
  obtain ⟨hroot, hread, rfl⟩ := scanTree_eq_ok_iff.mp hscan
  obtain ⟨p, hp, rfl⟩ := List.mem_map.mp hhit
  obtain ⟨old, hold⟩ := hread p hp
  obtain ⟨l, hl, hfile⟩ := exists_locate_of_fileBytes hold
  obtain ⟨dir, name, rfl, -⟩ := fileName?_of_locate hl hfile
  obtain ⟨before, after, hsplit⟩ := List.append_of_mem hp
  refine ⟨dir, name, before.map t.hitAt, after.map t.hitAt, hl, ?_, ⟨old, hold, ?_⟩, fun bytes => ?_,
    scanBytes_append_feed⟩
  · rw [hsplit, List.map_append, List.map_cons]
  · rw [hitAt_of_fileBytes hold]
  · exact ⟨fileBytes_replace_self hfile bytes hl, scanTree_replace hfile hroot hread hsplit hl bytes⟩

theorem shaders_shaderTree :
    shaderTree.shaders ⟨"src"⟩ = [⟨"src/a.hlsl/c.hlsl"⟩, ⟨"src/b.hlsl"⟩] := by
  have hfiles : (shaderTree.filesUnder ⟨"src"⟩).filter isShader =
      [⟨"src/b.hlsl"⟩, ⟨"src/a.hlsl/c.hlsl"⟩] := by decide
  have horder : Path.le ⟨"src/b.hlsl"⟩ ⟨"src/a.hlsl/c.hlsl"⟩ = false := by decide
  rw [shaders, hfiles]
  simp [List.mergeSort, horder]

theorem scanTree_shaderTree : (scanTree ⟨"src"⟩ : StateM FileTree _) shaderTree =
    (.ok [⟨⟨"src/a.hlsl/c.hlsl"⟩, []⟩, ⟨⟨"src/b.hlsl"⟩, ["F="]⟩], shaderTree) := by
  refine scanTree_eq_ok_iff.mpr ⟨by decide, ?_, ?_⟩
  · rw [shaders_shaderTree, List.forall_mem_cons, List.forall_mem_singleton]
    exact ⟨⟨[0xFF], by decide⟩, ⟨[70, 61], by decide⟩⟩
  · rw [shaders_shaderTree]
    decide

/-- A character that is cut off at the end of a line stays there. -/
theorem scanTree_truncated :
    (scanTree ⟨"src"⟩ : StateM FileTree _)
        (shaderTree.set ["src", "a.hlsl"] "c.hlsl" (.file [0x54, 0x3D, 0xE2, 0x82, 0x0A, 0x55, 0x3D])) =
      (.ok [⟨⟨"src/a.hlsl/c.hlsl"⟩, ["T=\uFFFD", "U="]⟩, ⟨⟨"src/b.hlsl"⟩, ["F="]⟩],
        shaderTree.set ["src", "a.hlsl"] "c.hlsl" (.file [0x54, 0x3D, 0xE2, 0x82, 0x0A, 0x55, 0x3D])) := by
  obtain ⟨dir, name, before, after, hplace, hsplit, -, hother, hlocal⟩ :=
    scanTree_lineLocal scanTree_shaderTree List.mem_cons_self
  have hlocate : shaderTree.locate ⟨"src/a.hlsl/c.hlsl"⟩ = .ok (["src", "a.hlsl"] ++ ["c.hlsl"]) := by
    decide
  obtain ⟨rfl, hname⟩ := List.append_inj' (Except.ok.inj (hplace.symm.trans hlocate)) rfl
  obtain ⟨rfl, -⟩ := List.cons.inj hname
  obtain ⟨rfl, rfl⟩ : before = [] ∧ after = [⟨⟨"src/b.hlsl"⟩, ["F="]⟩] := by
    rcases before with _ | ⟨x, _ | ⟨y, more⟩⟩ <;> simp_all
  have hlines : scanBytes ([0x54, 0x3D, 0xE2, 0x82] ++ 0x0A :: [0x55, 0x3D]) = ["T=\uFFFD", "U="] :=
    (hlocal _ _).trans (by decide)
  rw [(hother _).2, ← hlines]
  rfl

end FileTree

end DemoScaffold
