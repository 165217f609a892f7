import DemoScaffold.Proofs.Path.Segments
import DemoScaffold.Proofs.Text.Spans

/-!
# Components

The components of a path are those of its segments, behind its lead. Joining keeps the lead and adds the
components of the second path's segments.
-/

namespace DemoScaffold.Path

variable {p q : Path} {name : String}

/-- A segment that is a component of its own: it leads down. -/
structure IsProper (name : String) : Prop where
  noSlash : '/' ∉ name.toList
  notIdle : isIdle name = false
  notUp : name ≠ ".."

theorem IsProper.ne_empty (h : IsProper name) : name ≠ "" := by
  rintro rfl
  exact absurd h.notIdle (by decide)

theorem IsProper.ofSegment? (h : IsProper name) : Component.ofSegment? name = some (.normal name) := by
  rw [Component.ofSegment?, h.notIdle, if_neg (by decide), if_neg h.notUp]

theorem ofSegment?_of_idle (h : isIdle name = true) : Component.ofSegment? name = none :=
  if_pos h

/-- The lead of a path has no components among those of its segments. -/
theorem components_eq (p : Path) :
    p.components = p.lead.toList ++ p.segments.filterMap Component.ofSegment? := by
  have hlead : p.leadSegments.filterMap Component.ofSegment? = [] :=
    List.filterMap_eq_nil_iff.mpr fun s hs => ofSegment?_of_idle (isIdle_of_mem_leadSegments hs)
  rw [components, ← leadSegments_append_body, List.filterMap_append, hlead, List.nil_append]

theorem segments_eq_base (p : Path) : p.segments = p.base ∨ p.segments = p.base ++ [""] := by
  rw [base]
  split
  · rename_i h
    obtain ⟨front, hfront⟩ := List.getLast?_eq_some_iff.mp h
    exact .inr (by rw [hfront, List.dropLast_concat])
  · exact .inl rfl

theorem filterMap_base (p : Path) :
    p.base.filterMap Component.ofSegment? = p.segments.filterMap Component.ofSegment? := by
  rcases p.segments_eq_base with h | h
  · rw [h]
  · rw [h, List.filterMap_append, List.filterMap_cons_none (ofSegment?_of_idle (by decide)),
      List.filterMap_nil, List.append_nil]

theorem lead_of_segments (h : p.segments = q.segments) : p.lead = q.lead := by
  rw [lead, lead, h]

theorem lead_of_cons {x : String} {xs : List String} (h : p.segments = x :: xs) :
    p.lead = if x = "" ∧ xs ≠ [] then some .root else if x = "." then some .current else none := by
  rw [lead, h]
  split
  · rename_i heq
    obtain ⟨rfl, rfl⟩ := List.cons.inj heq
    simp
  · rename_i heq
    obtain ⟨rfl, rfl⟩ := List.cons.inj heq
    simp
  · rename_i hroot hdot
    have hx : ¬ (x = "" ∧ xs ≠ []) := by
      rintro ⟨rfl, hxs⟩
      obtain ⟨y, ys, rfl⟩ := List.exists_cons_of_ne_nil hxs
      exact hroot y ys rfl
    have hx' : x ≠ "." := by
      rintro rfl
      exact hdot xs rfl
    rw [if_neg hx, if_neg hx']

theorem lead_join (hq : q.isAbsolute = false) (hbase : p.base ≠ []) : (p.join q).lead = p.lead := by
  obtain ⟨x, rest, hx⟩ := List.exists_cons_of_ne_nil hbase
  have hjoin : (p.join q).segments = x :: (rest ++ q.segments) := by
    rw [segments_join hq, hx, List.cons_append]
  obtain ⟨more, hmore, hempty⟩ : ∃ more, p.segments = x :: more ∧ (x = "" → more ≠ []) := by
    rcases p.segments_eq_base with h | h
    · refine ⟨rest, h.trans hx, ?_⟩
      rintro rfl rfl
      have hlast : p.segments.getLast? = some "" := by rw [h, hx]; rfl
      have hbase' : p.base = p.segments.dropLast := if_pos hlast
      rw [h, hx] at hbase'
      cases hbase'
    · exact ⟨rest ++ [""], by rw [h, hx, List.cons_append], fun _ => by simp⟩
  rw [lead_of_cons hjoin, lead_of_cons hmore]
  by_cases h : x = ""
  · rw [if_pos ⟨h, by simp [segments_ne_nil]⟩, if_pos ⟨h, hempty h⟩]
  · have hroot (xs : List String) : ¬ (x = "" ∧ xs ≠ []) := fun hx => h hx.1
    rw [if_neg (hroot _), if_neg (hroot _)]

/-- A path that has nothing in front of what is joined to it has no components. -/
theorem components_of_base (h : p.base = []) : p.components = [] := by
  have hsegments : p.segments = [""] := by
    rcases p.segments_eq_base with hp | hp
    · exact absurd (hp.trans h) p.segments_ne_nil
    · rw [hp, h, List.nil_append]
  rw [components_eq, lead_of_cons hsegments, hsegments]
  rfl

/-- A text without slashes in front of another one belongs to the first segment. -/
theorem splitSlash_append_of_notMem {s : List Char} (h : '/' ∉ s) (t first : List Char)
    (more : List (List Char)) (ht : splitSlash t = first :: more) :
    splitSlash (s ++ t) = (s ++ first) :: more := by
  induction s with
  | nil => exact ht
  | cons c rest ih =>
      obtain ⟨hc, hrest⟩ := not_or.mp (mt List.mem_cons.mpr h)
      rw [List.cons_append, splitSlash, if_neg (Ne.symm hc), ih hrest]
      rfl

theorem segments_append {s : String} (h : '/' ∉ s.toList) (t : String) :
    ∃ first more, (⟨t⟩ : Path).segments = first :: more ∧
      (⟨s ++ t⟩ : Path).segments = (s ++ first) :: more := by
  obtain ⟨first, more, ht⟩ := List.exists_cons_of_ne_nil (splitSlash_ne_nil t.toList)
  refine ⟨String.ofList first, more.map String.ofList, ?_, ?_⟩
  · rw [segments, ht, List.map_cons]
  · rw [segments, String.toList_append, splitSlash_append_of_notMem h _ _ _ ht, List.map_cons,
      String.ofList_append, String.ofList_toList]

/-- Joining a relative path adds the components of its segments. -/
theorem components_join (hq : q.isAbsolute = false) (hlead : p.base = [] → q.lead = none) :
    (p.join q).components = p.components ++ q.segments.filterMap Component.ofSegment? := by
  by_cases hbase : p.base = []
  · have hsegments : (p.join q).segments = q.segments := by
      rw [segments_join hq, hbase, List.nil_append]
    rw [components_of_base hbase, components_eq, lead_of_segments hsegments, hlead hbase, hsegments]
    rfl
  · rw [components_eq, lead_join hq hbase, segments_join hq, List.filterMap_append, filterMap_base,
      components_eq, List.append_assoc]

theorem components_join_proper (p : Path) (h : IsProper name) :
    (p.join ⟨name⟩).components = p.components ++ [.normal name] := by
  have hsegments := segments_eq_singleton h.noSlash
  have hlead : (⟨name⟩ : Path).lead = none := by
    rw [lead_of_cons hsegments, if_neg fun hx => h.ne_empty hx.1]
    refine if_neg ?_
    rintro rfl
    exact absurd h.notIdle (by decide)
  rw [components_join (isAbsolute_of_slash_notMem h.noSlash) fun _ => hlead, hsegments,
    List.filterMap_cons_some h.ofSegment?, List.filterMap_nil]

/-- The path is the directory or lies below it: its components begin with those of the directory. -/
def IsWithin (p directory : Path) : Prop :=
  directory.components <+: p.components

instance (p directory : Path) : Decidable (p.IsWithin directory) :=
  inferInstanceAs (Decidable (directory.components <+: p.components))

theorem isWithin_self (p : Path) : p.IsWithin p :=
  List.prefix_rfl

/-! ## Names -/

theorem fileName?_of_segments {before : List String} (h : p.segments = before ++ [name])
    (hname : IsProper name) : p.fileName? = some name := by
  rw [fileName?, components_eq, h, List.filterMap_append, List.filterMap_cons_some hname.ofSegment?,
    List.filterMap_nil, ← List.append_assoc, List.getLast?_concat]

theorem split_last_dot (stem : List Char) {ext : List Char} (hext : '.' ∉ ext) :
    (stem ++ '.' :: ext).reverse.takeWhile (· != '.') = ext.reverse ∧
      (stem ++ '.' :: ext).reverse.dropWhile (· != '.') = '.' :: stem.reverse := by
  have hreverse : (stem ++ '.' :: ext).reverse = ext.reverse ++ '.' :: stem.reverse := by simp
  have hbefore : ∀ c ∈ ext.reverse, (c != '.') = true := by
    intro c hc
    rw [bne_iff_ne]
    rintro rfl
    exact hext (List.mem_reverse.mp hc)
  rw [hreverse, takeWhile_stop hbefore (by decide), dropWhile_stop hbefore (by decide)]
  exact ⟨rfl, rfl⟩

/-- A text with a dot is what is before its last dot, the dot and what is behind it. -/
theorem eq_of_last_dot {s before : List Char} {dot : Char}
    (h : s.reverse.dropWhile (· != '.') = dot :: before) :
    '.' ∉ (s.reverse.takeWhile (· != '.')).reverse ∧
      s = before.reverse ++ '.' :: (s.reverse.takeWhile (· != '.')).reverse := by
  have hafter : '.' ∉ s.reverse.takeWhile (· != '.') := fun hmem => by
    simpa using List.all_eq_true.mp List.all_takeWhile _ hmem
  have hdot : dot = '.' := by
    have hhead := List.head?_dropWhile_not (· != '.') s.reverse
    simpa [h] using hhead
  have hsplit := List.takeWhile_append_dropWhile (p := (· != '.')) (l := s.reverse)
  rw [h, hdot] at hsplit
  refine ⟨by simpa using hafter, ?_⟩
  simpa using (congrArg List.reverse hsplit).symm

/-- The extension of a file name follows its last dot, which has something before it. -/
theorem extension?_eq_some_iff (hname : p.fileName? = some name) (ext : String) :
    p.extension? = some ext ↔
      '.' ∉ ext.toList ∧ ∃ stem, stem ≠ "" ∧ name = stem ++ "." ++ ext := by
  simp only [extension?, hname, Option.bind_eq_bind, Option.bind_some]
  constructor
  · intro h
    cases hdrop : name.toList.reverse.dropWhile (· != '.') with
    | nil => simp [hdrop] at h
    | cons dot before =>
        cases before with
        | nil => simp [hdrop] at h
        | cons c more =>
            obtain ⟨hafter, hsplit⟩ := eq_of_last_dot hdrop
            simp only [hdrop, Option.some.injEq] at h
            rw [← h]
            refine ⟨by simpa using hafter, String.ofList (c :: more).reverse, by simp, ?_⟩
            exact String.toList_inj.mp (by simpa using hsplit)
  · rintro ⟨hext, stem, hstem, rfl⟩
    have hname : (stem ++ "." ++ ext).toList = stem.toList ++ '.' :: ext.toList := by simp
    have hne : stem.toList.reverse ≠ [] := by simpa using hstem
    obtain ⟨hafter, hbefore⟩ := split_last_dot stem.toList hext
    obtain ⟨c, more, hmore⟩ := List.exists_cons_of_ne_nil hne
    rw [hname, hafter, hbefore, hmore]
    simp

end DemoScaffold.Path
