import DemoScaffold.Disk.Basic

/-!
# File trees

A file system as a value: finitely many files and directories, each at the list of names that leads
to it, every one inside a directory. `lookup` is the view that the operations are described by. A
file can have a limit, and what is written to it is cut there.

There are no links, no devices and no permissions, and a name is a Unicode text. The directory that
paths start from is the top, and stays so.
-/

namespace DemoScaffold

/-- The names that lead to an entry from the top. -/
abbrev Location := List String

/-- What stands at a location: a directory or a regular file, and nothing of another kind. -/
inductive Entry where
  | directory
  | file (bytes : List UInt8)
deriving DecidableEq, Repr

/-- The texts that can name an entry of a directory. -/
def isName (s : String) : Bool :=
  s ≠ "" && s ≠ "." && s ≠ ".." && s.utf8ByteSize ≤ 255 &&
    s.toList.all fun c => c ≠ '/' && c ≠ '\x00'

/-- A file system below its top directory. `room` is how many bytes it takes for the file at a
location, if it does not take as many as it is given. -/
structure FileTree where
  entries : List (Location × Entry)
  room : Location → Option Nat
  distinct : (entries.map Prod.fst).Nodup
  named : ∀ e ∈ entries, e.1 ≠ [] ∧ ∀ n ∈ e.1, isName n = true
  inDirectory : ∀ e ∈ entries, e.1.dropLast = [] ∨ (e.1.dropLast, Entry.directory) ∈ entries

namespace FileTree

def empty : FileTree where
  entries := []
  room := fun _ => none
  distinct := by simp
  named := by simp
  inDirectory := by simp

instance : Inhabited FileTree := ⟨empty⟩

def entryAt (l : Location) : List (Location × Entry) → Option Entry
  | [] => none
  | x :: rest => if x.1 = l then some x.2 else entryAt l rest

/-- What is found at a location; the top is a directory. -/
def lookup (t : FileTree) : Location → Option Entry
  | [] => some .directory
  | l => entryAt l t.entries

@[simp] theorem lookup_nil (t : FileTree) : t.lookup [] = some .directory := rfl

theorem lookup_of_ne_nil (t : FileTree) {l : Location} (h : l ≠ []) :
    t.lookup l = entryAt l t.entries := by
  cases l with
  | nil => exact absurd rfl h
  | cons _ _ => rfl

/-! ## Setting an entry -/

/-- The entries with `e` at `l`, in the place of the old entry or at the end. -/
def setEntry (l : Location) (e : Entry) : List (Location × Entry) → List (Location × Entry)
  | [] => [(l, e)]
  | x :: rest => if x.1 = l then (l, e) :: rest else x :: setEntry l e rest

theorem mem_setEntry {l : Location} {e : Entry} {es : List (Location × Entry)}
    {x : Location × Entry} (h : x ∈ setEntry l e es) : x = (l, e) ∨ x ∈ es := by
  induction es with
  | nil => simpa [setEntry] using h
  | cons y rest ih =>
    simp only [setEntry] at h
    split at h
    · rcases List.mem_cons.1 h with h | h
      · exact .inl h
      · exact .inr (List.mem_cons_of_mem _ h)
    · rcases List.mem_cons.1 h with h | h
      · exact .inr (h ▸ List.mem_cons_self)
      · exact (ih h).imp id (List.mem_cons_of_mem _)

theorem mem_setEntry_of_ne {l : Location} {e : Entry} {es : List (Location × Entry)}
    {x : Location × Entry} (hx : x ∈ es) (h : x.1 ≠ l) : x ∈ setEntry l e es := by
  induction es with
  | nil => simp at hx
  | cons y rest ih =>
    simp only [setEntry]
    rcases List.mem_cons.1 hx with rfl | hx
    · simp [h]
    · split <;> simp [hx, ih hx]

theorem entryAt_setEntry (l k : Location) (e : Entry) (es : List (Location × Entry)) :
    entryAt k (setEntry l e es) = if k = l then some e else entryAt k es := by
  induction es with
  | nil =>
    by_cases h : k = l
    · simp [setEntry, entryAt, h]
    · simp [setEntry, entryAt, h, Ne.symm h]
  | cons y rest ih =>
    by_cases hk : k = l
    · subst hk
      by_cases hy : y.1 = k <;> simp_all [setEntry, entryAt]
    · by_cases hy : y.1 = l
      · simp [setEntry, entryAt, hy, hk, Ne.symm hk]
      · simp [setEntry, entryAt, hy, ih, hk]

theorem distinct_setEntry {l : Location} {e : Entry} {es : List (Location × Entry)}
    (h : (es.map Prod.fst).Nodup) : ((setEntry l e es).map Prod.fst).Nodup := by
  induction es with
  | nil => simp [setEntry]
  | cons y rest ih =>
    obtain ⟨hy, hrest⟩ := List.nodup_cons.1 h
    simp only [setEntry]
    split
    · rename_i hl
      exact List.nodup_cons.2 ⟨hl ▸ hy, hrest⟩
    · rename_i hl
      refine List.nodup_cons.2 ⟨fun hm => ?_, ih hrest⟩
      obtain ⟨x, hx, hxy⟩ := List.mem_map.1 hm
      rcases mem_setEntry hx with rfl | hx
      · exact hl hxy.symm
      · exact hy (List.mem_map.2 ⟨x, hx, hxy⟩)

theorem mem_of_entryAt {l : Location} {e : Entry} {es : List (Location × Entry)}
    (h : entryAt l es = some e) : (l, e) ∈ es := by
  induction es with
  | nil => simp [entryAt] at h
  | cons y rest ih =>
    simp only [entryAt] at h
    split at h
    · rename_i hy
      simp only [Option.some.injEq] at h
      simp [← hy, ← h]
    · exact List.mem_cons_of_mem _ (ih h)

theorem entryAt_of_mem {es : List (Location × Entry)} (h : (es.map Prod.fst).Nodup) {l : Location}
    {e : Entry} (hm : (l, e) ∈ es) : entryAt l es = some e := by
  induction es with
  | nil => simp at hm
  | cons y rest ih =>
    obtain ⟨hy, hrest⟩ := List.nodup_cons.1 h
    rcases List.mem_cons.1 hm with rfl | hm
    · simp [entryAt]
    · have hne : y.1 ≠ l := by
        rintro rfl
        exact hy (List.mem_map.2 ⟨_, hm, rfl⟩)
      simp [entryAt, hne, ih hrest hm]

/-- What is looked up below the top is an entry, and every entry is looked up. -/
theorem lookup_eq_some_iff {t : FileTree} {l : Location} {e : Entry} (hl : l ≠ []) :
    t.lookup l = some e ↔ (l, e) ∈ t.entries := by
  rw [lookup_of_ne_nil t hl]
  exact ⟨mem_of_entryAt, entryAt_of_mem t.distinct⟩

/-- Whether `e` may be set under the name `name` in the directory `dir`: a new entry, or the new
bytes of a file. -/
def CanSet (t : FileTree) (dir : Location) (name : String) (e : Entry) : Prop :=
  t.lookup dir = some .directory ∧ isName name = true ∧
    (t.lookup (dir ++ [name]) = none ∨
      (∃ old, t.lookup (dir ++ [name]) = some (.file old)) ∧ ∃ new, e = .file new)

instance (t : FileTree) (dir : Location) (name : String) (e : Entry) :
    Decidable (t.CanSet dir name e) :=
  have : Decidable (∃ old, t.lookup (dir ++ [name]) = some (.file old)) :=
    match h : t.lookup (dir ++ [name]) with
    | some (.file old) => isTrue ⟨old, rfl⟩
    | some .directory => isFalse (by simp)
    | none => isFalse (by simp)
  have : Decidable (∃ new, e = .file new) :=
    match e with
    | .file new => isTrue ⟨new, rfl⟩
    | .directory => isFalse (by simp)
  inferInstanceAs (Decidable (_ ∧ _ ∧ _))

/-- Sets an entry where that is allowed, and changes nothing elsewhere. -/
def set (t : FileTree) (dir : Location) (name : String) (e : Entry) : FileTree :=
  if h : t.CanSet dir name e then
    { entries := setEntry (dir ++ [name]) e t.entries
      room := t.room
      distinct := distinct_setEntry t.distinct
      named := by
        intro x hx
        rcases mem_setEntry hx with rfl | hx
        · refine ⟨by simp, fun n hn => ?_⟩
          rcases List.mem_append.1 hn with hn | hn
          · cases dir with
            | nil => simp at hn
            | cons d ds => exact (t.named _ ((lookup_eq_some_iff (by simp)).1 h.1)).2 n hn
          · rw [List.mem_singleton.1 hn]; exact h.2.1
        · exact t.named x hx
      inDirectory := by
        have keep : ∀ l : Location, (l, Entry.directory) ∈ t.entries →
            (l, Entry.directory) ∈ setEntry (dir ++ [name]) e t.entries := by
          intro l hl
          refine mem_setEntry_of_ne hl fun hdir => ?_
          subst hdir
          have hsome : t.lookup (dir ++ [name]) = some .directory :=
            (lookup_eq_some_iff (by simp)).2 hl
          rcases h.2.2 with hnone | ⟨⟨old, hold⟩, _⟩
          · simp [hsome] at hnone
          · simp [hsome] at hold
        intro x hx
        rcases mem_setEntry hx with rfl | hx
        · simp only [List.dropLast_concat]
          by_cases hd : dir = []
          · exact .inl hd
          · exact .inr (keep dir ((lookup_eq_some_iff hd).1 h.1))
        · exact (t.inDirectory x hx).imp id (keep _) }
  else t

end FileTree

end DemoScaffold
