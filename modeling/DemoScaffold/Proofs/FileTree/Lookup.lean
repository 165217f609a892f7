import DemoScaffold.FileTree.Operations
import Mathlib.Data.List.Induction

/-!
# Lookups

What is found in a tree after an entry has been set, and what the well-formedness of trees says about
lookups. `Keeps` is what every operation of the program preserves: nothing is lost and nothing changes
its kind. Two trees are equal if they have the same places in the same order, the same lookups and the
same room (`ext_lookup`).
-/

namespace DemoScaffold.FileTree

variable {t u v : FileTree} {dir l : Location} {name : String} {e : Entry}

/-! ## Well-formedness -/

theorem lookup_nil_isSome (t : FileTree) : (t.lookup []).isSome := rfl

theorem lookup_ne_none_iff (hl : l ≠ []) : t.lookup l ≠ none ↔ ∃ e, (l, e) ∈ t.entries := by
  rw [Option.ne_none_iff_exists']
  exact exists_congr fun e => lookup_eq_some_iff hl

theorem lookup_file_iff {bytes : List UInt8} :
    t.lookup l = some (.file bytes) ↔ (l, .file bytes) ∈ t.entries := by
  by_cases hl : l = []
  · subst hl
    refine iff_of_false (by simp) fun hmem => ?_
    exact (t.named _ hmem).1 rfl
  · exact lookup_eq_some_iff hl

/-- What is found lies in a directory. -/
theorem lookup_dropLast (h : t.lookup l ≠ none) : t.lookup l.dropLast = some .directory := by
  by_cases hl : l = []
  · simp [hl]
  · obtain ⟨e, he⟩ := (lookup_ne_none_iff hl).mp h
    rcases t.inDirectory _ he with htop | hdir
    · simp only at htop
      rw [htop, lookup_nil]
    · by_cases htop : l.dropLast = []
      · rw [htop, lookup_nil]
      · exact (lookup_eq_some_iff htop).mpr hdir

theorem lookup_of_below {name : String} {rest : List String}
    (h : t.lookup (l ++ name :: rest) ≠ none) : t.lookup l = some .directory := by
  induction rest using List.reverseRecOn with
  | nil => simpa using lookup_dropLast h
  | append_singleton rest last ih =>
      have hsplit : l ++ name :: (rest ++ [last]) = (l ++ name :: rest) ++ [last] := by simp
      rw [hsplit] at h
      have hdir := lookup_dropLast h
      rw [List.dropLast_concat] at hdir
      exact ih (by simp [hdir])

theorem isName_of_lookup (h : t.lookup l ≠ none) (hname : name ∈ l) : isName name = true := by
  obtain ⟨e, he⟩ := (lookup_ne_none_iff (List.ne_nil_of_mem hname)).mp h
  exact (t.named _ he).2 name hname

/-! ## After setting an entry -/

theorem lookup_set (h : t.CanSet dir name e) (l : Location) :
    (t.set dir name e).lookup l = if l = dir ++ [name] then some e else t.lookup l := by
  rw [set, dif_pos h]
  cases l with
  | nil => simp
  | cons x rest =>
      rw [lookup_of_ne_nil _ (List.cons_ne_nil x rest), entryAt_setEntry,
        lookup_of_ne_nil t (List.cons_ne_nil x rest)]

theorem set_of_not_canSet (h : ¬ t.CanSet dir name e) : t.set dir name e = t :=
  dif_neg h

@[simp] theorem room_set (t : FileTree) (dir : Location) (name : String) (e : Entry) :
    (t.set dir name e).room = t.room := by
  rw [set]
  split <;> rfl

/-! ## What stays -/

/-- Whatever is found in `t` is found in `u` and is of the same kind, and there is room for the same. -/
structure Keeps (t u : FileTree) : Prop where
  directory : ∀ {l}, t.lookup l = some .directory → u.lookup l = some .directory
  file : ∀ {l bytes}, t.lookup l = some (.file bytes) → ∃ new, u.lookup l = some (.file new)
  room : u.room = t.room

theorem Keeps.refl (t : FileTree) : t.Keeps t :=
  ⟨fun h => h, fun h => ⟨_, h⟩, rfl⟩

theorem Keeps.trans (h₁ : t.Keeps u) (h₂ : u.Keeps v) : t.Keeps v := by
  refine ⟨fun h => h₂.directory (h₁.directory h), fun h => ?_, h₂.room.trans h₁.room⟩
  obtain ⟨_, hu⟩ := h₁.file h
  exact h₂.file hu

theorem Keeps.set (t : FileTree) (dir : Location) (name : String) (e : Entry) :
    t.Keeps (t.set dir name e) := by
  by_cases h : t.CanSet dir name e
  · refine ⟨fun {l} hl => ?_, fun {l bytes} hl => ?_, room_set t dir name e⟩
    · rw [lookup_set h]
      split
      · rename_i heq
        rcases h.2.2 with hnone | ⟨⟨old, hold⟩, _⟩
        · simp [← heq, hl] at hnone
        · simp [← heq, hl] at hold
      · exact hl
    · rw [lookup_set h]
      split
      · rename_i heq
        rcases h.2.2 with hnone | ⟨_, new, rfl⟩
        · simp [← heq, hl] at hnone
        · exact ⟨new, rfl⟩
      · exact ⟨bytes, hl⟩
  · rw [set_of_not_canSet h]
    exact Keeps.refl t

theorem Keeps.isSome (h : t.Keeps u) (hl : (t.lookup l).isSome) : (u.lookup l).isSome := by
  obtain ⟨e, he⟩ := Option.isSome_iff_exists.mp hl
  cases e with
  | directory => simp [h.directory he]
  | file bytes =>
      obtain ⟨_, hu⟩ := h.file he
      simp [hu]

/-! ## Places -/

/-- The locations of the entries, in their order. -/
def places (t : FileTree) : List Location :=
  t.entries.map Prod.fst

theorem map_fst_setEntry {es : List (Location × Entry)} (h : l ∈ es.map Prod.fst) :
    (setEntry l e es).map Prod.fst = es.map Prod.fst := by
  induction es with
  | nil => simp at h
  | cons x rest ih =>
      rw [setEntry]
      split
      · rename_i hx
        simp [hx]
      · rename_i hx
        rcases List.mem_cons.mp h with rfl | hrest
        · exact absurd rfl hx
        · simp [ih hrest]

/-- An entry that replaces another one keeps its place. -/
theorem places_set (h : t.lookup (dir ++ [name]) ≠ none) :
    (t.set dir name e).places = t.places := by
  rw [set]
  split
  · obtain ⟨old, hold⟩ := (lookup_ne_none_iff (by simp)).mp h
    exact map_fst_setEntry (List.mem_map.mpr ⟨_, hold, rfl⟩)
  · rfl

theorem entries_eq_map_places (t : FileTree) :
    t.entries = t.places.map fun l => (l, (t.lookup l).getD .directory) := by
  rw [places, List.map_map]
  refine (List.map_id' t.entries).symm.trans (List.map_congr_left fun x hx => ?_)
  have hlookup := (lookup_eq_some_iff (t.named x hx).1).mpr hx
  simp [hlookup]

theorem ext_lookup (hplaces : t.places = u.places) (h : ∀ l, t.lookup l = u.lookup l)
    (hroom : t.room = u.room) : t = u := by
  have hentries : t.entries = u.entries := by
    rw [entries_eq_map_places t, entries_eq_map_places u, hplaces]
    exact List.map_congr_left fun l _ => by rw [h l]
  cases t
  cases u
  simp_all

end DemoScaffold.FileTree
