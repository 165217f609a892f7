import DemoScaffold.Bindings
import DemoScaffold.Proofs.Text.Order
import Mathlib.Data.Finset.Card

/-!
# Bindings

Bindings that are made by inserting names hold each name once, in the order of the names. So the names
that are bound determine which entries there are (`map_fst_eq`), and a text is found exactly where it
stands in an entry. It is the one that was inserted last for its name (`get?_ofList_eq_some_iff`).
-/

namespace DemoScaffold.Bindings

variable {α : Type} {name : String} {a : α} {es fs : List (String × α)}

/-- Entries in the order of their names, each name once. -/
def InOrder (es : List (String × α)) : Prop :=
  es.Pairwise fun e f => Text.before e.1 f.1 = true

theorem mem_bind {e : String × α} (h : e ∈ bind name a es) : e = (name, a) ∨ e ∈ es := by
  induction es with
  | nil => exact .inl (List.mem_singleton.mp h)
  | cons f rest ih =>
      rw [bind] at h
      split at h
      · exact (List.mem_cons.mp h).imp id (List.mem_cons_of_mem f)
      · split at h
        · exact List.mem_cons.mp h
        · rcases List.mem_cons.mp h with rfl | h
          · exact .inr List.mem_cons_self
          · exact (ih h).imp id (List.mem_cons_of_mem f)

theorem InOrder.bind (h : InOrder es) (name : String) (a : α) : InOrder (bind name a es) := by
  induction es with
  | nil => exact List.pairwise_singleton _ _
  | cons e rest ih =>
      obtain ⟨he, hrest⟩ := List.pairwise_cons.mp h
      rw [Bindings.bind]
      split
      · rename_i hname
        exact List.pairwise_cons.mpr ⟨fun f hf => hname ▸ he f hf, hrest⟩
      · rename_i hname
        split
        · rename_i hbefore
          refine List.pairwise_cons.mpr ⟨fun f hf => ?_, h⟩
          rcases List.mem_cons.mp hf with rfl | hf
          · exact hbefore
          · exact Text.before_trans hbefore (he f hf)
        · rename_i hbefore
          refine List.pairwise_cons.mpr ⟨fun f hf => ?_, ih hrest⟩
          rcases mem_bind hf with rfl | hf
          · exact Text.before_of_not_before (Ne.symm hname) hbefore
          · exact he f hf

theorem inOrder_ofList (pairs : List (String × String)) : InOrder (ofList pairs).entries := by
  have hfold : ∀ b : Bindings, InOrder b.entries →
      InOrder (pairs.foldl (fun b pair => b.insert pair.1 pair.2) b).entries := by
    induction pairs with
    | nil => exact fun b hb => hb
    | cons pair rest ih => exact fun b hb => ih _ (hb.bind pair.1 pair.2)
  exact hfold empty List.Pairwise.nil

theorem get?_eq_some_iff {b : Bindings} (h : InOrder b.entries) {text : String} :
    b.get? name = some text ↔ (name, text) ∈ b.entries := by
  rw [get?]
  generalize b.entries = es at h
  induction es with
  | nil => simp
  | cons e rest ih =>
      obtain ⟨other, text'⟩ := e
      obtain ⟨he, hrest⟩ := List.pairwise_cons.mp h
      by_cases hname : other = name
      · subst hname
        have hnot : (other, text) ∉ rest := fun hmem =>
          Text.not_before_self other (he (other, text) hmem)
        simp [hnot, eq_comm]
      · rw [List.find?_cons_of_neg (by simpa using hname), ih hrest, List.mem_cons]
        simp [Ne.symm hname]

theorem isSome_get?_iff {b : Bindings} (h : InOrder b.entries) :
    (b.get? name).isSome = true ↔ name ∈ b.entries.map Prod.fst := by
  rw [Option.isSome_iff_exists, List.mem_map]
  constructor
  · rintro ⟨text, htext⟩
    exact ⟨(name, text), (get?_eq_some_iff h).mp htext, rfl⟩
  · rintro ⟨⟨other, text⟩, hmem, rfl⟩
    exact ⟨text, (get?_eq_some_iff h).mpr hmem⟩

/-! ## The order of the names -/

theorem nodup_of_ordered {names : List String} (h : names.Pairwise fun s t => Text.before s t = true) :
    names.Nodup := by
  refine h.imp ?_
  rintro s _ hst rfl
  exact Text.not_before_self s hst

theorem InOrder.names (h : InOrder es) :
    (es.map Prod.fst).Pairwise fun s t => Text.before s t = true :=
  List.pairwise_map.mpr h

theorem InOrder.nodup (h : InOrder es) : es.Nodup :=
  List.Nodup.of_map Prod.fst (nodup_of_ordered h.names)

theorem map_fst_eq (hes : InOrder es) (hfs : InOrder fs)
    (h : ∀ name, name ∈ es.map Prod.fst ↔ name ∈ fs.map Prod.fst) :
    es.map Prod.fst = fs.map Prod.fst := by
  have hperm := (List.perm_ext_iff_of_nodup (nodup_of_ordered hes.names) (nodup_of_ordered hfs.names)).mpr h
  exact hperm.eq_of_pairwise
    (fun s t _ _ hst hts => absurd (Text.before_trans hst hts) (Text.not_before_self s))
    hes.names hfs.names

/-- Entries in order are determined by what is found among them. -/
theorem eq_of_get? {b b' : Bindings} (hb : InOrder b.entries) (hb' : InOrder b'.entries)
    (h : ∀ name, b.get? name = b'.get? name) : b = b' := by
  have hmem : ∀ e : String × String, e ∈ b.entries ↔ e ∈ b'.entries := by
    rintro ⟨name, text⟩
    rw [← get?_eq_some_iff hb, ← get?_eq_some_iff hb', h]
  have hperm := (List.perm_ext_iff_of_nodup hb.nodup hb'.nodup).mpr hmem
  refine congrArg Bindings.mk (List.Perm.eq_of_pairwise ?_ hb hb' hperm)
  exact fun e f _ _ hef hfe => absurd (Text.before_trans hef hfe) (Text.not_before_self e.1)

/-! ## Inserting -/

theorem find?_bind (other : String) :
    (bind name a es).find? (·.1 = other) =
      if other = name then some (name, a) else es.find? (·.1 = other) := by
  induction es with
  | nil =>
      by_cases hother : other = name
      · simp [bind, hother]
      · simp [bind, hother, Ne.symm hother]
  | cons e rest ih =>
      rw [bind]
      by_cases hname : e.1 = name
      · by_cases hother : other = name
        · simp [hname, hother]
        · simp [hname, hother, Ne.symm hother]
      · rw [if_neg hname]
        split
        · by_cases hother : other = name
          · simp [hother]
          · simp [hother, Ne.symm hother]
        · by_cases he : e.1 = other
          · have hother : other ≠ name := he ▸ hname
            simp [he, hother]
          · simp [he, ih]

theorem get?_insert (b : Bindings) (name text other : String) :
    (b.insert name text).get? other = if other = name then some text else b.get? other := by
  rw [get?, insert, find?_bind]
  split <;> rfl

theorem ofList_concat (pairs : List (String × String)) (pair : String × String) :
    ofList (pairs ++ [pair]) = (ofList pairs).insert pair.1 pair.2 := by
  rw [ofList, List.foldl_append]
  rfl

theorem get?_ofList (pairs : List (String × String)) (name : String) :
    (ofList pairs).get? name = (pairs.reverse.find? (·.1 = name)).map (·.2) := by
  induction pairs using List.reverseRecOn with
  | nil => rfl
  | append_singleton pairs pair ih =>
      rw [ofList_concat, get?_insert, List.reverse_concat, List.find?_cons, ih]
      by_cases hname : pair.1 = name
      · simp [hname]
      · simp [hname, Ne.symm hname]

/-- The last text that is inserted for a name is the one that is found. -/
theorem get?_ofList_eq_some_iff {pairs : List (String × String)} {text : String} :
    (ofList pairs).get? name = some text ↔
      ∃ before after, pairs = before ++ (name, text) :: after ∧ ∀ p ∈ after, p.1 ≠ name := by
  rw [get?_ofList]
  constructor
  · intro h
    obtain ⟨⟨other, text'⟩, hfind, rfl⟩ := Option.map_eq_some_iff.mp h
    obtain ⟨hname, after, before, hsplit, hafter⟩ := List.find?_eq_some_iff_append.mp hfind
    obtain rfl : other = name := by simpa using hname
    refine ⟨before.reverse, after.reverse, ?_, fun p hp => ?_⟩
    · simpa using congrArg List.reverse hsplit
    · simpa using hafter p (List.mem_reverse.mp hp)
  · rintro ⟨before, after, rfl, hafter⟩
    have hskip : after.reverse.find? (·.1 = name) = none :=
      List.find?_eq_none.mpr fun p hp => by simpa using hafter p (List.mem_reverse.mp hp)
    rw [List.reverse_append, List.reverse_cons, List.append_assoc, List.find?_append, hskip]
    simp

theorem get?_ofList_eq_none_iff {pairs : List (String × String)} :
    (ofList pairs).get? name = none ↔ ∀ p ∈ pairs, p.1 ≠ name := by
  simp [get?_ofList]

theorem size_ofList (pairs : List (String × String)) :
    (ofList pairs).size = (pairs.map Prod.fst).toFinset.card := by
  have horder := inOrder_ofList pairs
  have hnames : (pairs.map Prod.fst).toFinset = ((ofList pairs).entries.map Prod.fst).toFinset := by
    ext name
    rw [List.mem_toFinset, List.mem_toFinset, ← isSome_get?_iff horder, ← not_iff_not,
      Option.not_isSome_iff_eq_none, get?_ofList_eq_none_iff]
    simp only [List.mem_map, not_exists, not_and, ne_eq]
  rw [hnames, List.toFinset_card_of_nodup (nodup_of_ordered horder.names), List.length_map, size]

end DemoScaffold.Bindings
