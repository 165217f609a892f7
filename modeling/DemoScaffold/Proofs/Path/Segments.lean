import DemoScaffold.Path.Basic

/-!
# Segments

What joining does to segments: a path joined to a root has the segments of the root, without an empty
one at their end, and then its own (`segments_join`). The paths above a path are written with the
beginnings of its segments.
-/

namespace DemoScaffold.Path

/-! ## Splitting at slashes -/

theorem splitSlash_ne_nil (s : List Char) : splitSlash s ≠ [] := by
  cases s with
  | nil => simp [splitSlash]
  | cons c rest =>
      rw [splitSlash]
      split
      · simp
      · split <;> simp

theorem splitSlash_append (s t : List Char) :
    splitSlash (s ++ '/' :: t) = splitSlash s ++ splitSlash t := by
  induction s with
  | nil => simp [splitSlash]
  | cons c rest ih =>
      by_cases hc : c = '/'
      · simp [splitSlash, hc, ih]
      · obtain ⟨first, more, h⟩ := List.exists_cons_of_ne_nil (splitSlash_ne_nil rest)
        simp [splitSlash, hc, ih, h]

theorem splitSlash_eq_singleton {s : List Char} (h : '/' ∉ s) : splitSlash s = [s] := by
  induction s with
  | nil => rfl
  | cons c rest ih =>
      obtain ⟨hc, hrest⟩ := not_or.mp (mt List.mem_cons.mpr h)
      rw [splitSlash, if_neg (Ne.symm hc), ih hrest]

theorem slash_notMem_of_mem_splitSlash {s piece : List Char} (h : piece ∈ splitSlash s) :
    '/' ∉ piece := by
  induction s generalizing piece with
  | nil =>
      rw [splitSlash, List.mem_singleton] at h
      simp [h]
  | cons c rest ih =>
      rw [splitSlash] at h
      split at h
      · rcases List.mem_cons.mp h with rfl | h
        · simp
        · exact ih h
      · rename_i hc
        obtain ⟨first, more, hsplit⟩ := List.exists_cons_of_ne_nil (splitSlash_ne_nil rest)
        rw [hsplit] at h ih
        rcases List.mem_cons.mp h with rfl | h
        · have := ih List.mem_cons_self
          simp [this, Ne.symm hc]
        · exact ih (List.mem_cons_of_mem _ h)

theorem subset_of_mem_splitSlash {s piece : List Char} (h : piece ∈ splitSlash s) : piece ⊆ s := by
  induction s generalizing piece with
  | nil =>
      rw [splitSlash, List.mem_singleton] at h
      simp [h]
  | cons c rest ih =>
      rw [splitSlash] at h
      split at h
      · rcases List.mem_cons.mp h with rfl | h
        · simp
        · exact List.Subset.trans (ih h) (List.subset_cons_self c rest)
      · obtain ⟨first, more, hsplit⟩ := List.exists_cons_of_ne_nil (splitSlash_ne_nil rest)
        rw [hsplit] at h ih
        rcases List.mem_cons.mp h with rfl | h
        · exact List.cons_subset_cons c (ih List.mem_cons_self)
        · exact List.Subset.trans (ih (List.mem_cons_of_mem _ h)) (List.subset_cons_self c rest)

theorem joinSlash_splitSlash (s : List Char) :
    joinSlash ((splitSlash s).map String.ofList) = String.ofList s := by
  induction s with
  | nil => simp [splitSlash, joinSlash]
  | cons c rest ih =>
      obtain ⟨first, more, h⟩ := List.exists_cons_of_ne_nil (splitSlash_ne_nil rest)
      rw [h, List.map_cons] at ih
      by_cases hc : c = '/'
      · rw [splitSlash, if_pos hc, h]
        simp only [joinSlash, List.map_cons, String.intercalate_cons_cons] at ih ⊢
        rw [ih, hc, String.ofList_cons]
        rfl
      · rw [splitSlash, if_neg hc, h]
        simp only [joinSlash, List.map_cons, String.ofList_cons, String.intercalate_cons_append] at ih ⊢
        rw [ih]

/-! ## Segments of a path -/

theorem segments_ne_nil (p : Path) : p.segments ≠ [] := by
  simp [segments, splitSlash_ne_nil]

theorem slash_notMem_of_mem_segments {p : Path} {s : String} (h : s ∈ p.segments) :
    '/' ∉ s.toList := by
  obtain ⟨piece, hpiece, rfl⟩ := List.mem_map.mp h
  simpa using slash_notMem_of_mem_splitSlash hpiece

theorem subset_of_mem_segments {p : Path} {s : String} (h : s ∈ p.segments) :
    s.toList ⊆ p.text.toList := by
  obtain ⟨piece, hpiece, rfl⟩ := List.mem_map.mp h
  simpa using subset_of_mem_splitSlash hpiece

theorem joinSlash_segments (p : Path) : joinSlash p.segments = p.text := by
  rw [segments, joinSlash_splitSlash, String.ofList_toList]

theorem segments_eq_singleton {name : String} (h : '/' ∉ name.toList) :
    (⟨name⟩ : Path).segments = [name] := by
  simp [segments, splitSlash_eq_singleton h]

theorem joinSlash_append {xs ys : List String} (hx : xs ≠ []) (hy : ys ≠ []) :
    joinSlash (xs ++ ys) = joinSlash xs ++ "/" ++ joinSlash ys :=
  String.intercalate_append_of_ne_nil hx hy

theorem segments_joinSlash {xs : List String} (hx : xs ≠ []) (h : ∀ x ∈ xs, '/' ∉ x.toList) :
    (⟨joinSlash xs⟩ : Path).segments = xs := by
  induction xs with
  | nil => exact absurd rfl hx
  | cons x rest ih =>
      have hsegments := segments_eq_singleton (h x List.mem_cons_self)
      cases rest with
      | nil => simpa [joinSlash] using hsegments
      | cons y more =>
          have hmore := ih (by simp) fun z hz => h z (List.mem_cons_of_mem _ hz)
          have htext : (joinSlash (x :: y :: more)).toList =
              x.toList ++ '/' :: (joinSlash (y :: more)).toList := by
            simp [joinSlash]
          rw [segments] at hsegments hmore
          rw [segments, htext, splitSlash_append, List.map_append, hsegments, hmore]
          rfl

/-! ## Joining -/

/-- The segments of a root in front of what is joined to it. -/
def base (p : Path) : List String :=
  if p.segments.getLast? = some "" then p.segments.dropLast else p.segments

theorem text_of_getLast_segments {p : Path} (h : p.segments.getLast? = some "") :
    p.text = "" ∨ p.text.toList.getLast? = some '/' := by
  obtain ⟨before, hbefore⟩ := List.getLast?_eq_some_iff.mp h
  have htext := joinSlash_segments p
  rw [hbefore] at htext
  by_cases hempty : before = []
  · left
    rw [← htext, hempty]
    rfl
  · right
    rw [← htext, joinSlash_append hempty (by simp)]
    simp [joinSlash]

theorem segments_join {p q : Path} (h : q.isAbsolute = false) :
    (p.join q).segments = p.base ++ q.segments := by
  by_cases hempty : p.text = ""
  · have hbase : p.base = [] := by simp [base, segments, hempty, splitSlash]
    simp [join, hempty, hbase]
  by_cases hslash : p.text.toList.getLast? = some '/'
  · obtain ⟨front, hfront⟩ := List.getLast?_eq_some_iff.mp hslash
    have hbase : p.base = (splitSlash front).map String.ofList := by
      simp [base, segments, hfront, splitSlash_append, splitSlash]
    rw [hbase]
    simp [join, h, hempty, segments, hfront, splitSlash_append]
  · have hbase : p.base = p.segments :=
      if_neg fun hlast => (text_of_getLast_segments hlast).elim hempty hslash
    rw [hbase]
    simp [join, h, hempty, hslash, segments, splitSlash_append]

theorem isAbsolute_of_slash_notMem {name : String} (h : '/' ∉ name.toList) :
    (⟨name⟩ : Path).isAbsolute = false := by
  rw [isAbsolute, lead, segments_eq_singleton h]
  split
  · simp_all
  · rfl
  · rfl

theorem segments_join_name (p : Path) {name : String} (h : '/' ∉ name.toList) :
    (p.join ⟨name⟩).segments = p.base ++ [name] := by
  rw [segments_join (isAbsolute_of_slash_notMem h), segments_eq_singleton h]

theorem base_join_name (p : Path) {name : String} (h : '/' ∉ name.toList) (hname : name ≠ "") :
    (p.join ⟨name⟩).base = p.base ++ [name] := by
  rw [base, segments_join_name p h]
  simp [hname]

/-! ## Ancestors -/

/-- The segments of a path in front of its body. -/
def leadSegments (p : Path) : List String :=
  match p.lead with
  | some .root => [""]
  | some _ => ["."]
  | none => []

theorem leadSegments_append_body (p : Path) : p.leadSegments ++ p.body = p.segments := by
  rw [leadSegments, body]
  cases hlead : p.lead with
  | none => rfl
  | some l =>
      rw [lead] at hlead
      split at hlead
      · cases hlead
        simp_all
      · cases hlead
        simp_all
      · cases hlead

theorem isIdle_of_mem_leadSegments {p : Path} {s : String} (h : s ∈ p.leadSegments) :
    isIdle s = true := by
  rw [leadSegments] at h
  split at h <;> simp_all [isIdle]

theorem withBody_eq {p : Path} {body : List String} (h : body ≠ []) :
    p.withBody body = ⟨joinSlash (p.leadSegments ++ body)⟩ := by
  rw [withBody, leadSegments]
  cases p.lead with
  | none => rfl
  | some l => cases l <;> simp [h]

theorem segments_withBody {p : Path} {body : List String} (h : body ≠ [])
    (hs : ∀ s ∈ body, '/' ∉ s.toList) : (p.withBody body).segments = p.leadSegments ++ body := by
  rw [withBody_eq h, segments_joinSlash (by simp [h])]
  intro s hmem
  rcases List.mem_append.mp hmem with hlead | hbody
  · exact slash_notMem_of_mem_segments
      (leadSegments_append_body p ▸ List.mem_append_left _ hlead)
  · exact hs s hbody

theorem withBody_body {p : Path} (h : p.body ≠ []) : p.withBody p.body = p := by
  rw [withBody_eq h, leadSegments_append_body, joinSlash_segments]

theorem body_of_segments {p : Path} {before : List String} {last : String}
    (h : p.segments = before ++ [last]) (hlast : isIdle last = false) :
    ∃ front, p.body = front ++ [last] := by
  have happend := leadSegments_append_body p
  rw [h] at happend
  cases hbody : p.body.getLast? with
  | none =>
      rw [List.getLast?_eq_none_iff.mp hbody, List.append_nil] at happend
      have hidle : isIdle last = true := isIdle_of_mem_leadSegments (p := p) (by simp [happend])
      simp [hlast] at hidle
  | some l =>
      obtain ⟨front, hfront⟩ := List.getLast?_eq_some_iff.mp hbody
      rw [hfront, ← List.append_assoc] at happend
      exact ⟨front, by rw [hfront, (List.append_inj' happend rfl).2]⟩

theorem ancestors_eq_leadingPaths {p : Path} {before : List String} {last : String}
    (h : p.segments = before ++ [last]) (hlast : isIdle last = false) :
    p.ancestors = p.leadingPaths p.body.reverse := by
  obtain ⟨front, hfront⟩ := body_of_segments h hlast
  have hself : p.withBody p.body = p := withBody_body (by simp [hfront])
  rw [hfront] at hself
  simp [ancestors, hfront, leadingPaths, hlast, hself]

theorem ancestors_eq_cons {p : Path} {before : List String} {last : String}
    (h : p.segments = before ++ [last]) (hlast : isIdle last = false) :
    ∃ above, p.ancestors = p :: above := by
  obtain ⟨front, hfront⟩ := body_of_segments h hlast
  exact ⟨_, by simp [ancestors, hfront, leadingPaths, hlast]; rfl⟩

end DemoScaffold.Path
