import DemoScaffold.Template.Markup

/-!
# Written markers

Every value of some markup that is a marker stands in the template body as it is written
(`Markup.written_of_parse`).
-/

namespace DemoScaffold.Template

/-! ## Suffixes -/

theorem skipSpace_suffix (s : List Char) : skipSpace s <:+ s :=
  List.dropWhile_suffix _

theorem append_of_expect {word s rest : List Char} (h : expect word s = some rest) :
    s = word ++ rest := by
  rw [expect] at h
  split at h
  · rename_i hstart
    cases h
    obtain ⟨rest, rfl⟩ := List.isPrefixOf_iff_prefix.mp hstart
    rw [List.drop_left]
  · cases h

theorem expect_suffix {word s rest : List Char} (h : expect word s = some rest) : rest <:+ s :=
  ⟨word, (append_of_expect h).symm⟩

theorem Tag.readTilde_suffix (s : List Char) : (readTilde s).2 <:+ s := by
  rw [readTilde]
  split
  · rename_i rest hs
    exact (skipSpace_suffix rest).trans ((List.suffix_cons _ _).trans (hs ▸ skipSpace_suffix s))
  · exact skipSpace_suffix s

/-! ## Tags -/

variable {s rest : List Char} {m : Marker}

theorem Marker.written_of_read (h : Marker.read s = some (m, rest)) : m.written.toList <+: s := by
  simp only [Marker.read, Option.map_eq_some_iff, Prod.mk.injEq] at h
  obtain ⟨_, -, rfl, -⟩ := h
  rw [String.toList_ofList]
  exact List.take_prefix _ _

/-- The marker that a tag writes the value of. -/
def TagContent.marker? : TagContent → Option Marker
  | .value (.marker m) => some m
  | _ => none

theorem Argument.call_of_readCall {read : List Char → Option (Argument × List Char)} {a : Argument}
    (h : Argument.readCall read s = some (a, rest)) :
    ∃ name positional named, a = .call name positional named := by
  rw [readCall] at h
  obtain ⟨inner, -, h⟩ := Option.bind_eq_some_iff.mp h
  dsimp only at h
  split at h
  · obtain ⟨behind, -, h⟩ := Option.bind_eq_some_iff.mp h
    cases h
    exact ⟨_, _, _, rfl⟩
  · obtain ⟨m, -, h⟩ := Option.bind_eq_some_iff.mp h
    obtain ⟨behind, -, h⟩ := Option.bind_eq_some_iff.mp h
    cases h
    exact ⟨_, _, _, rfl⟩

theorem Argument.written_of_readReference (h : Argument.readReference s = some (.marker m, rest)) :
    m.written.toList <+: s := by
  rw [Argument.readReference, Option.or_eq_some_iff] at h
  rcases h with h | ⟨-, h⟩
  · obtain ⟨⟨m', rest'⟩, hread, heq⟩ := Option.map_eq_some_iff.mp h
    cases heq
    exact Marker.written_of_read hread
  · obtain ⟨_, _, _, hcall⟩ := Argument.call_of_readCall h
    cases hcall

namespace Tag

variable {content : TagContent}

theorem written_of_readValue (h : readValue s = some (content, rest)) (hm : content.marker? = some m) :
    m.written.toList <+: s := by
  rw [readValue] at h
  split at h
  · cases h
    cases hm
  · obtain ⟨⟨a, rest'⟩, hread, heq⟩ := Option.map_eq_some_iff.mp h
    cases heq
    cases a with
    | marker m' =>
        cases hm
        exact Argument.written_of_readReference hread
    | literal v => cases hm
    | call name positional named => cases hm

theorem marker?_of_readMiddle {tilde : Bool} (h : readMiddle s = some (content, tilde, rest)) :
    content.marker? = none := by
  rw [readMiddle] at h
  obtain ⟨behind, -, h⟩ := Option.bind_eq_some_iff.mp h
  split at h
  · cases h
    rfl
  · obtain ⟨head, -, h⟩ := Option.bind_eq_some_iff.mp h
    obtain ⟨ending, -, h⟩ := Option.bind_eq_some_iff.mp h
    cases h
    rfl

theorem marker?_of_readOpen (h : readOpen s = some (content, rest)) : content.marker? = none := by
  rw [readOpen] at h
  split at h <;>
  · obtain ⟨read, -, heq⟩ := Option.map_eq_some_iff.mp h
    cases heq
    rfl

theorem written_of_readContent (h : readContent s = some (content, rest))
    (hm : content.marker? = some m) : m.written.toList <:+: s := by
  rw [readContent.eq_def] at h
  split at h
  · rename_i rest
    obtain ⟨⟨content', behind⟩, hread, h⟩ := Option.bind_eq_some_iff.mp h
    obtain ⟨_, -, h⟩ := Option.bind_eq_some_iff.mp h
    cases h
    exact (written_of_readValue hread hm).isInfix.trans
      ((skipSpace_suffix rest).trans (List.suffix_cons _ _)).isInfix
  · rename_i rest
    obtain ⟨⟨a, behind⟩, hread, heq⟩ := Option.map_eq_some_iff.mp h
    cases heq
    cases a with
    | marker m' =>
        cases hm
        exact (Argument.written_of_readReference hread).isInfix.trans
          ((skipSpace_suffix rest).trans (List.suffix_cons _ _)).isInfix
    | literal v => cases hm
    | call name positional named => cases hm
  · rw [marker?_of_readOpen h] at hm
    cases hm
  · cases h
    cases hm
  · obtain ⟨head, -, heq⟩ := Option.map_eq_some_iff.mp h
    cases heq
    cases hm
  · obtain ⟨insert, -, heq⟩ := Option.map_eq_some_iff.mp h
    cases heq
    cases hm
  · exact (written_of_readValue h hm).isInfix

variable {t : Tag}

theorem written_of_readInner (h : readInner s = some (t, rest)) (hm : t.content.marker? = some m) :
    m.written.toList <:+: s := by
  simp only [readInner] at h
  split at h
  · rename_i hmiddle
    cases h
    rw [marker?_of_readMiddle hmiddle] at hm
    cases hm
  · obtain ⟨⟨content, behind⟩, hcontent, h⟩ := Option.bind_eq_some_iff.mp h
    obtain ⟨_, -, h⟩ := Option.bind_eq_some_iff.mp h
    cases h
    exact (written_of_readContent hcontent hm).trans (readTilde_suffix s).isInfix

theorem written_of_readTriple (h : readTriple s = some (t, rest)) (hm : t.content.marker? = some m) :
    m.written.toList <:+: s := by
  simp only [readTriple] at h
  obtain ⟨⟨content, behind⟩, hvalue, h⟩ := Option.bind_eq_some_iff.mp h
  obtain ⟨_, -, h⟩ := Option.bind_eq_some_iff.mp h
  cases h
  exact (written_of_readValue hvalue hm).isInfix.trans (readTilde_suffix s).isInfix

theorem written_of_read (h : read s = some (t, rest)) (hm : t.content.marker? = some m) :
    m.written.toList <:+: s := by
  rw [read] at h
  obtain ⟨inner, hinner, h⟩ := Option.bind_eq_some_iff.mp h
  refine List.IsInfix.trans ?_ (expect_suffix hinner).isInfix
  split at h
  · cases h
  · rename_i rest _
    cases htriple : readTriple rest with
    | some read =>
        rw [htriple] at h
        cases h
        exact (written_of_readTriple htriple hm).trans (List.suffix_cons _ _).isInfix
    | none =>
        rw [htriple] at h
        exact written_of_readInner h hm
  · obtain ⟨_, -, heq⟩ := Option.map_eq_some_iff.mp h
    cases heq
    cases hm
  · exact written_of_readInner h hm

end Tag

/-! ## Pieces -/

theorem mem_of_mem_addText {t : Tag} {ps : List Piece} (h : .tag t ∈ addText s ps) : .tag t ∈ ps := by
  rw [addText.eq_def] at h
  split at h
  · simpa using h
  · simpa using h

theorem marker?_of_readVerbatim {t : Tag} {ps : List Piece} (h : readVerbatim s = some (ps, rest))
    (ht : .tag t ∈ ps) : t.content.marker? = none := by
  rw [readVerbatim] at h
  obtain ⟨⟨start, inner⟩, hstart, h⟩ := Option.bind_eq_some_iff.mp h
  obtain ⟨⟨stop, behind⟩, hstop, h⟩ := Option.bind_eq_some_iff.mp h
  cases h
  simp only [List.mem_cons, List.not_mem_nil, or_false, Piece.tag.injEq, reduceCtorEq,
    false_or] at ht
  rcases ht with rfl | rfl
  · rw [Tag.readVerbatimOpen] at hstart
    obtain ⟨_, -, hstart⟩ := Option.bind_eq_some_iff.mp hstart
    obtain ⟨_, -, hstart⟩ := Option.bind_eq_some_iff.mp hstart
    obtain ⟨_, -, hstart⟩ := Option.bind_eq_some_iff.mp hstart
    cases hstart
    rfl
  · rw [Tag.readVerbatimClose] at hstop
    obtain ⟨_, -, hstop⟩ := Option.bind_eq_some_iff.mp hstop
    obtain ⟨_, -, hstop⟩ := Option.bind_eq_some_iff.mp hstop
    obtain ⟨_, -, hstop⟩ := Option.bind_eq_some_iff.mp hstop
    obtain ⟨_, -, hstop⟩ := Option.bind_eq_some_iff.mp hstop
    cases hstop
    rfl

theorem written_of_readBraces {t : Tag} {ps : List Piece} (h : readBraces s = some (ps, rest))
    (ht : .tag t ∈ ps) (hm : t.content.marker? = some m) : m.written.toList <:+: s := by
  rw [readBraces] at h
  split at h
  · rw [marker?_of_readVerbatim h ht] at hm
    cases hm
  · obtain ⟨⟨t', behind⟩, hread, heq⟩ := Option.map_eq_some_iff.mp h
    cases heq
    cases List.mem_singleton.mp ht
    exact Tag.written_of_read hread hm

theorem written_of_piecesAfter {t : Tag} {skip : Nat} {ps : List Piece}
    (h : piecesAfter skip s = some ps) (ht : .tag t ∈ ps) (hm : t.content.marker? = some m) :
    m.written.toList <:+: s := by
  induction skip, s using piecesAfter.induct generalizing ps with
  | case1 skip =>
      cases h
      cases ht
  | case2 skip c rest ih => exact (ih h ht).trans (List.suffix_cons _ _).isInfix
  | case3 c rest hbraces ih =>
      rw [piecesAfter, if_pos hbraces] at h
      obtain ⟨⟨first, behind⟩, hfirst, h⟩ := Option.bind_eq_some_iff.mp h
      obtain ⟨more, hmore, h⟩ := Option.bind_eq_some_iff.mp h
      cases h
      rcases List.mem_append.mp ht with ht | ht
      · exact written_of_readBraces hfirst ht hm
      · exact (ih _ hmore ht).trans (List.suffix_cons _ _).isInfix
  | case4 c rest hbraces hescape ih =>
      rw [piecesAfter, if_neg hbraces, hescape] at h
      obtain ⟨more, hmore, rfl⟩ := Option.map_eq_some_iff.mp h
      exact (ih hmore (mem_of_mem_addText ht)).trans (List.suffix_cons _ _).isInfix
  | case5 c rest hbraces n hescape ih =>
      rw [piecesAfter, if_neg hbraces, hescape] at h
      obtain ⟨more, hmore, rfl⟩ := Option.map_eq_some_iff.mp h
      exact (ih hmore (mem_of_mem_addText ht)).trans (List.suffix_cons _ _).isInfix

/-! ## Items -/

theorem tag_of_mem_layout {content : TagContent} {indent : Indent} {ps : List Piece} {margin : Margin}
    (h : .tag content indent ∈ layout margin ps) : ∃ t : Tag, .tag t ∈ ps ∧ t.content = content := by
  induction ps generalizing margin with
  | nil => cases h
  | cons piece rest ih =>
      have hrest {margin : Margin} (h : .tag content indent ∈ layout margin rest) :
          ∃ t : Tag, .tag t ∈ piece :: rest ∧ t.content = content := by
        obtain ⟨t, ht, hcontent⟩ := ih h
        exact ⟨t, List.mem_cons_of_mem _ ht, hcontent⟩
      cases piece with
      | tag t =>
          rcases List.mem_cons.mp h with h | h
          · cases h
            exact ⟨t, List.mem_cons_self, rfl⟩
          · exact hrest h
      | verbatim space s =>
          rcases List.mem_cons.mp h with h | h
          · cases h
          · exact hrest h
      | text s =>
          simp only [layout] at h
          split at h
          · exact hrest h
          · rcases List.mem_cons.mp h with h | h
            · cases h
            · exact hrest h

/-! ## Markup -/

namespace Markup

/-- The markers that markup writes the values of, those in partials apart. -/
def markers : Markup → List Marker
  | .done => []
  | .text _ rest => rest.markers
  | .value a rest => (TagContent.value a).marker?.toList ++ rest.markers
  | .call _ _ rest => rest.markers
  | .block _ _ body _ inverse rest => body.markers ++ inverse.markers ++ rest.markers
  | .directive _ _ _ rest => rest.markers
  | .insert _ _ _ _ _ rest => rest.markers

def Open.markers (o : Open) : List Marker :=
  (o.inverse.getD .done).markers ++ o.rest.markers

theorem markers_of_addTag {content : TagContent} {indent : Indent} {tree tree' : Markup}
    {blocks blocks' : List Open} (h : addTag content indent tree blocks = some (tree', blocks')) :
    tree'.markers ++ blocks'.flatMap Open.markers ⊆
      content.marker?.toList ++ (tree.markers ++ blocks.flatMap Open.markers) := by
  rw [addTag.eq_def] at h
  split at h
  · cases h
    exact List.subset_append_right _ _
  · cases h
    rw [markers, List.append_assoc]
    exact List.Subset.refl _
  · cases h
    exact List.subset_append_right _ _
  · cases h
    exact List.subset_append_right _ _
  · cases h
    exact List.subset_append_right _ _
  · cases h
    simp [markers, Open.markers]
  · cases h
    simp [markers, Open.markers]
  · cases h
    simp [markers, Open.markers, ofBlock]
  · split at h
    · cases h
      simp [markers, Open.markers, ofBlock]
    · cases h
  · split at h
    · cases h
      simp [markers, Open.markers]
    · cases h
  · split at h
    · cases h
      simp [markers, Open.markers]
    · cases h
  · cases h

theorem tag_of_nest {its : List Item} {tree : Markup} {blocks : List Open}
    (h : nest its = some (tree, blocks)) {m : Marker}
    (hm : m ∈ tree.markers ++ blocks.flatMap Open.markers) :
    ∃ content indent, .tag content indent ∈ its ∧ content.marker? = some m := by
  induction its generalizing tree blocks with
  | nil =>
      cases h
      cases hm
  | cons item rest ih =>
      cases item with
      | text s =>
          obtain ⟨⟨tree', blocks'⟩, hnest, heq⟩ := Option.map_eq_some_iff.mp h
          cases heq
          obtain ⟨content, indent, hmem, hmarker⟩ := ih hnest hm
          exact ⟨content, indent, List.mem_cons_of_mem _ hmem, hmarker⟩
      | tag content indent =>
          obtain ⟨⟨tree', blocks'⟩, hnest, hadd⟩ := Option.bind_eq_some_iff.mp h
          rcases List.mem_append.mp (markers_of_addTag hadd hm) with hm | hm
          · exact ⟨content, indent, List.mem_cons_self, Option.mem_toList.mp hm⟩
          · obtain ⟨content', indent', hmem, hmarker⟩ := ih hnest hm
            exact ⟨content', indent', List.mem_cons_of_mem _ hmem, hmarker⟩

theorem written_of_parse {body : List Char} {tree : Markup} (h : parse body = some tree) {m : Marker}
    (hm : m ∈ tree.markers) : m.written.toList <:+: body := by
  rw [parse] at h
  obtain ⟨ps, hpieces, h⟩ := Option.bind_eq_some_iff.mp h
  obtain ⟨⟨tree', blocks⟩, hnest, h⟩ := Option.bind_eq_some_iff.mp h
  cases blocks with
  | cons o outer => cases h
  | nil =>
      cases h
      obtain ⟨content, indent, hitem, hmarker⟩ := tag_of_nest hnest (List.mem_append_left _ hm)
      obtain ⟨t, ht, rfl⟩ := tag_of_mem_layout hitem
      exact written_of_piecesAfter hpieces ht hmarker

end Markup

end DemoScaffold.Template
