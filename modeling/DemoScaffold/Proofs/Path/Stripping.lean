import DemoScaffold.Proofs.Path.Components
import Mathlib.Data.List.DropRight

/-!
# Stripping

A path can be stripped of another one exactly if its components begin with those of the other one
(`isSome_relativeTo?_iff`). Joining what is left to the other path gives all the components back
(`components_join_relativeTo`), although the text may have lost idle segments.
-/

namespace DemoScaffold.Path

variable {p q root : Path} {cs : List Component} {xs body rest : List String}

/-! ## Idle segments -/

theorem filterMap_dropWhile_isIdle (xs : List String) :
    (xs.dropWhile isIdle).filterMap Component.ofSegment? = xs.filterMap Component.ofSegment? := by
  induction xs with
  | nil => rfl
  | cons s more ih =>
      by_cases hs : isIdle s = true
      · rw [List.dropWhile_cons_of_pos hs, ih, List.filterMap_cons_none (ofSegment?_of_idle hs)]
      · rw [List.dropWhile_cons_of_neg hs]

theorem filterMap_dropIdleEnd (xs : List String) :
    (dropIdleEnd xs).filterMap Component.ofSegment? = xs.filterMap Component.ofSegment? := by
  rw [dropIdleEnd, List.filterMap_reverse, filterMap_dropWhile_isIdle, List.filterMap_reverse,
    List.reverse_reverse]

theorem dropIdleEnd_prefix (xs : List String) : dropIdleEnd xs <+: xs :=
  List.rdropWhile_prefix isIdle xs

/-! ## Leads -/

theorem lead_cases (p : Path) :
    p.lead = none ∨ p.lead = some .root ∨ p.lead = some .current := by
  rw [lead]
  split
  · exact .inr (.inl rfl)
  · exact .inr (.inr rfl)
  · exact .inl rfl

theorem lead_eq_none_iff {s : String} (h : p.segments = s :: xs) :
    p.lead = none ↔ ¬ (s = "" ∧ xs ≠ []) ∧ s ≠ "." := by
  rw [lead_of_cons h]
  split_ifs <;> simp_all

theorem isAbsolute_iff : p.isAbsolute = true ↔ p.components.head? = some .root := by
  have hbody : (p.body.filterMap Component.ofSegment?).head? ≠ some .root := by
    intro h
    obtain ⟨s, -, hs⟩ := List.mem_filterMap.mp (List.mem_of_head? h)
    rw [Component.ofSegment?] at hs
    split_ifs at hs <;> cases hs
  rw [isAbsolute, decide_eq_true_iff, components]
  rcases p.lead_cases with h | h | h <;> rw [h]
  · exact iff_of_false (by decide) hbody
  · simp
  · simp

theorem text_of_components (h : p.components = []) : p.text = "" := by
  obtain ⟨s, more, hs⟩ := List.exists_cons_of_ne_nil p.segments_ne_nil
  rw [components_eq, hs, List.append_eq_nil_iff, Option.toList_eq_nil_iff, lead_eq_none_iff hs] at h
  obtain ⟨⟨hroot, hdot⟩, hnone⟩ := h
  have hidle : isIdle s = true := by
    by_contra hs
    rw [List.filterMap_eq_nil_iff] at hnone
    have := hnone s List.mem_cons_self
    rw [Component.ofSegment?, if_neg hs] at this
    split at this <;> cases this
  have hempty : s = "" := by simpa [isIdle, hdot] using hidle
  have hmore : more = [] := by simpa [hempty] using hroot
  rw [← joinSlash_segments p, hs, hempty, hmore]
  rfl

/-! ## Dropping components -/

theorem dropComponents_eq_some (h : dropComponents cs body = some rest) :
    rest <:+ body ∧
      body.filterMap Component.ofSegment? = cs ++ rest.filterMap Component.ofSegment? := by
  fun_induction dropComponents cs body with
  | case1 body =>
      cases h
      exact ⟨List.suffix_refl _, rfl⟩
  | case2 c cs => cases h
  | case3 c cs s more hs ih =>
      obtain ⟨hends, hcomponents⟩ := ih h
      exact ⟨hends.trans (List.suffix_cons s more), by rw [List.filterMap_cons_none hs, hcomponents]⟩
  | case4 cs s more c hs ih =>
      obtain ⟨hends, hcomponents⟩ := ih h
      refine ⟨hends.trans (List.suffix_cons s more), ?_⟩
      rw [List.filterMap_cons_some hs, hcomponents, List.cons_append]
  | case5 c cs s more d hs hne => cases h

theorem isSome_dropComponents_iff (cs : List Component) (body : List String) :
    (dropComponents cs body).isSome ↔ cs <+: body.filterMap Component.ofSegment? := by
  fun_induction dropComponents cs body with
  | case1 body => simp
  | case2 c cs => simp
  | case3 c cs s more hs ih => rw [ih, List.filterMap_cons_none hs]
  | case4 cs s more c hs ih => rw [ih, List.filterMap_cons_some hs, List.prefix_cons_inj]
  | case5 c cs s more d hs hne => simp [hs, List.cons_prefix_cons, hne]

/-- A path can be stripped of another one exactly if its components begin with those of the other one. -/
theorem isSome_relativeTo?_iff (p root : Path) :
    (p.relativeTo? root).isSome ↔ root.components <+: p.components := by
  rw [relativeTo?]
  split
  · rename_i hroot
    simp [hroot]
  · rename_i c cs l hroot hlead
    have hp : p.components = l :: p.body.filterMap Component.ofSegment? := by
      rw [components, hlead]
      rfl
    rw [hroot, hp, List.cons_prefix_cons, ← isSome_dropComponents_iff]
    split_ifs with hl <;> simp [hl]
  · rename_i hlead _
    have hp : p.components = p.body.filterMap Component.ofSegment? := by
      rw [components, hlead]
      rfl
    rw [hp, ← isSome_dropComponents_iff, Option.isSome_map]

/-! ## Joining what is left -/

theorem components_withBody_dropIdleEnd (p : Path) :
    (p.withBody (dropIdleEnd p.body)).components = p.components := by
  have hbody := filterMap_dropIdleEnd p.body
  by_cases hempty : dropIdleEnd p.body = []
  · rw [hempty, List.filterMap_nil] at hbody
    rw [hempty, components.eq_def p, ← hbody, List.append_nil, withBody]
    rcases p.lead_cases with h | h | h <;> rw [h] <;> decide
  · have hbegins := dropIdleEnd_prefix p.body
    have hsegments : (p.withBody (dropIdleEnd p.body)).segments =
        p.leadSegments ++ dropIdleEnd p.body := by
      refine segments_withBody hempty fun s hs => slash_notMem_of_mem_segments (p := p) ?_
      rw [← leadSegments_append_body]
      exact List.mem_append_right _ (hbegins.subset hs)
    have hlead : (p.withBody (dropIdleEnd p.body)).lead = p.lead := by
      rcases p.lead_cases with h | h | h
      · obtain ⟨s, more, hs⟩ := List.exists_cons_of_ne_nil hempty
        obtain ⟨back, hback⟩ := hbegins
        have hp := p.leadSegments_append_body
        rw [leadSegments, h, List.nil_append, ← hback, hs, List.cons_append] at hp
        obtain ⟨hroot, hdot⟩ := (lead_eq_none_iff hp.symm).mp h
        rw [leadSegments, h, List.nil_append] at hsegments
        rw [h, lead_eq_none_iff (hsegments.trans hs)]
        exact ⟨fun hx => hroot ⟨hx.1, by simp [hx.2]⟩, hdot⟩
      · rw [leadSegments, h] at hsegments
        rw [lead_of_cons hsegments, h, if_pos ⟨rfl, hempty⟩]
      · rw [leadSegments, h] at hsegments
        rw [lead_of_cons hsegments, h, if_neg (by simp), if_pos rfl]
    rw [components_eq, hlead, hsegments, List.filterMap_append, hbody, components]
    rw [List.filterMap_eq_nil_iff.mpr fun s hs => ofSegment?_of_idle (isIdle_of_mem_leadSegments hs)]
    rfl

/-- Segments that begin with one that leads somewhere go on from any path. -/
theorem components_join_joinSlash (root : Path) (hslash : ∀ s ∈ xs, '/' ∉ s.toList)
    (hhead : ∀ s, xs.head? = some s → isIdle s = false) :
    (root.join ⟨joinSlash xs⟩).components =
      root.components ++ xs.filterMap Component.ofSegment? := by
  cases xs with
  | nil =>
      have hsegments : (⟨joinSlash []⟩ : Path).segments = [""] := rfl
      have hlead : (⟨joinSlash []⟩ : Path).lead = none := rfl
      rw [components_join (by simp [isAbsolute, hlead]) fun _ => hlead, hsegments]
      rfl
  | cons s more =>
      have hsegments := segments_joinSlash (List.cons_ne_nil s more) hslash
      have hs : s ≠ "" ∧ s ≠ "." := by simpa [isIdle] using hhead s rfl
      have hlead : (⟨joinSlash (s :: more)⟩ : Path).lead = none :=
        (lead_eq_none_iff hsegments).mpr ⟨fun h => hs.1 h.1, hs.2⟩
      rw [components_join (by simp [isAbsolute, hlead]) fun _ => hlead, hsegments]

theorem components_join_left (root : Path) (hrest : dropComponents cs p.body = some rest) :
    (root.join ⟨joinSlash (dropIdleEnd (rest.dropWhile isIdle))⟩).components =
      root.components ++ rest.filterMap Component.ofSegment? := by
  obtain ⟨hends, -⟩ := dropComponents_eq_some hrest
  have hbegins := dropIdleEnd_prefix (rest.dropWhile isIdle)
  rw [components_join_joinSlash, filterMap_dropIdleEnd, filterMap_dropWhile_isIdle]
  · intro s hs
    refine slash_notMem_of_mem_segments (p := p) ?_
    rw [← leadSegments_append_body]
    exact List.mem_append_right _
      (hends.subset ((List.dropWhile_suffix isIdle).subset (hbegins.subset hs)))
  · intro s hs
    have hhead : (rest.dropWhile isIdle).head? = some s := by
      obtain ⟨back, hback⟩ := hbegins
      rw [← hback, List.head?_append, hs, Option.some_or]
    have hnot := List.head?_dropWhile_not isIdle rest
    rw [hhead] at hnot
    simpa using hnot

/-- Joining what is left of a path gives the path back. -/
theorem components_join_relativeTo (h : p.relativeTo? root = some q) :
    (root.join q).components = p.components := by
  rw [relativeTo?] at h
  split at h
  · rename_i hroot
    cases h
    rw [join, text_of_components hroot, if_pos (by simp), components_withBody_dropIdleEnd]
  · rename_i c cs l hroot hlead
    split_ifs at h with hl
    obtain ⟨rest, hrest, rfl⟩ := Option.map_eq_some_iff.mp h
    rw [components_join_left root hrest, hroot, components, hlead, (dropComponents_eq_some hrest).2, hl]
    rfl
  · rename_i hlead _
    obtain ⟨rest, hrest, rfl⟩ := Option.map_eq_some_iff.mp h
    rw [components_join_left root hrest, components.eq_def p, hlead, (dropComponents_eq_some hrest).2]
    rfl

end DemoScaffold.Path
