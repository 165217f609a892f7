import DemoScaffold.Config.Basic
import DemoScaffold.Proofs.Text.Blank
import DemoScaffold.Proofs.Traversal

/-!
# Checked modules

A key and a display name make a module exactly if the key has the form of a key and the display name is not
blank; otherwise they have one first fault (`moduleFault?_eq_none_iff`, `moduleFault?_eq_some_iff`). The
entries of a configuration are all made into modules, or it has the error of the first one that is none.
-/

namespace DemoScaffold

variable {c : Char} {rest : List Char} {key display : String} {fault : ModuleFault} {e : ToolError}

/-! ## The form of a key -/

/-- What a key may begin with: `[a-z_]`. -/
def IsKeyStart (c : Char) : Prop :=
  ('a' ≤ c ∧ c ≤ 'z') ∨ c = '_'

/-- What may follow: `[a-z0-9_]`. -/
def IsKeyPart (c : Char) : Prop :=
  IsKeyStart c ∨ ('0' ≤ c ∧ c ≤ '9')

/-- The form `[a-z_][a-z0-9_]*`. -/
def IsKey (key : String) : Prop :=
  ∃ c rest, key.toList = c :: rest ∧ IsKeyStart c ∧ ∀ d ∈ rest, IsKeyPart d

def BeginsWithDigit (key : String) : Prop :=
  ∃ c rest, key.toList = c :: rest ∧ '0' ≤ c ∧ c ≤ '9'

/-- When a fault is the first one that a key and a display name have. -/
def ModuleFault.IsFirst (key display : String) : ModuleFault → Prop
  | .emptyKey => key = ""
  | .leadingDigit => BeginsWithDigit key
  | .badCharacter c => ¬ BeginsWithDigit key ∧ ∃ before after, key.toList = before ++ c :: after ∧
      (∀ d ∈ before, IsKeyPart d) ∧ ¬ IsKeyPart c
  | .blankDisplay => IsKey key ∧ ∀ c ∈ display.toList, Text.isWhite c = true

theorem isDigit_iff : c.isDigit = true ↔ '0' ≤ c ∧ c ≤ '9' := by
  rw [Char.isDigit, Bool.and_eq_true, decide_eq_true_iff, decide_eq_true_iff]
  rfl

theorem isKeyChar_iff : isKeyChar c = true ↔ IsKeyPart c := by
  rw [isKeyChar, Bool.or_eq_true, Bool.or_eq_true, isDigit_iff, IsKeyPart, IsKeyStart]
  simp only [Bool.and_eq_true, decide_eq_true_eq, beq_iff_eq]
  tauto

theorem isKeyStart_iff : IsKeyStart c ↔ IsKeyPart c ∧ ¬ c.isDigit = true := by
  rw [IsKeyPart, ← isDigit_iff]
  constructor
  · intro h
    refine ⟨.inl h, fun hdigit => ?_⟩
    rw [isDigit_iff] at hdigit
    rcases h with ⟨hlow, -⟩ | rfl
    · exact absurd (Char.le_trans hlow hdigit.2) (by decide)
    · exact absurd hdigit (by decide)
  · rintro ⟨h | h, hdigit⟩
    · exact h
    · exact absurd h hdigit

theorem beginsWithDigit_iff (h : key.toList = c :: rest) : BeginsWithDigit key ↔ c.isDigit = true := by
  rw [isDigit_iff, BeginsWithDigit, h]
  constructor
  · rintro ⟨d, more, hcons, hdigit⟩
    obtain ⟨rfl, rfl⟩ := List.cons.inj hcons
    exact hdigit
  · exact fun hdigit => ⟨c, rest, rfl, hdigit⟩

theorem isKey_iff (h : key.toList = c :: rest) :
    IsKey key ↔ ¬ BeginsWithDigit key ∧ ∀ d ∈ c :: rest, IsKeyPart d := by
  rw [beginsWithDigit_iff h, List.forall_mem_cons, IsKey, h]
  constructor
  · rintro ⟨d, more, hcons, hstart, hmore⟩
    obtain ⟨rfl, rfl⟩ := List.cons.inj hcons
    obtain ⟨hpart, hdigit⟩ := isKeyStart_iff.mp hstart
    exact ⟨hdigit, hpart, hmore⟩
  · rintro ⟨hdigit, hpart, hrest⟩
    exact ⟨c, rest, rfl, isKeyStart_iff.mpr ⟨hpart, hdigit⟩, hrest⟩

/-! ## Faults -/

theorem not_beginsWithDigit_empty : ¬ BeginsWithDigit "" := by
  rintro ⟨c, rest, hempty, -⟩
  cases hempty

/-- The three ways in which a key is judged: without a first character, by its first one, and by all. -/
theorem keyFault?_cases (key : String) :
    (key = "" ∧ keyFault? key = some .emptyKey) ∨
    (BeginsWithDigit key ∧ keyFault? key = some .leadingDigit) ∨
    (key ≠ "" ∧ ¬ BeginsWithDigit key ∧
      keyFault? key = (key.toList.find? fun c => !isKeyChar c).map .badCharacter) := by
  rw [keyFault?]
  cases hkey : key.toList with
  | nil => exact .inl ⟨String.toList_eq_nil_iff.mp hkey, rfl⟩
  | cons c rest =>
      have hne : key ≠ "" := by
        rintro rfl
        cases hkey
      by_cases hdigit : c.isDigit = true
      · exact .inr (.inl ⟨(beginsWithDigit_iff hkey).mpr hdigit, if_pos hdigit⟩)
      · exact .inr (.inr ⟨hne, mt (beginsWithDigit_iff hkey).mp hdigit, if_neg hdigit⟩)

theorem find?_isKeyChar_iff : (key.toList.find? fun c => !isKeyChar c) = some c ↔
    ∃ before after, key.toList = before ++ c :: after ∧ (∀ d ∈ before, IsKeyPart d) ∧ ¬ IsKeyPart c := by
  simp only [List.find?_eq_some_iff_append, Bool.not_eq_true', ← isKeyChar_iff, Bool.not_eq_true,
    Bool.not_not]
  constructor
  · rintro ⟨hc, before, after, hsplit, hbefore⟩
    exact ⟨before, after, hsplit, hbefore, hc⟩
  · rintro ⟨before, after, hsplit, hbefore, hc⟩
    exact ⟨hc, before, after, hsplit, hbefore⟩

theorem keyFault?_eq_none_iff : keyFault? key = none ↔ IsKey key := by
  rcases keyFault?_cases key with ⟨rfl, hfault⟩ | ⟨hdigit, hfault⟩ | ⟨hne, hdigit, hfault⟩
  · simp [hfault, IsKey]
  · obtain ⟨c, rest, hkey, -⟩ := id hdigit
    simp [hfault, isKey_iff hkey, hdigit]
  · obtain ⟨c, rest, hkey⟩ := List.exists_cons_of_ne_nil (mt String.toList_eq_nil_iff.mp hne)
    rw [hfault, Option.map_eq_none_iff, List.find?_eq_none, isKey_iff hkey, hkey]
    simp [hdigit, isKeyChar_iff]

theorem keyFault?_eq_some_iff (display : String) :
    keyFault? key = some fault ↔ fault.IsFirst key display ∧ fault ≠ .blankDisplay := by
  rcases keyFault?_cases key with ⟨rfl, hfault⟩ | ⟨hdigit, hfault⟩ | ⟨hne, hdigit, hfault⟩
  · cases fault <;> simp [hfault, ModuleFault.IsFirst, not_beginsWithDigit_empty]
  · have hne : key ≠ "" := by
      rintro rfl
      exact not_beginsWithDigit_empty hdigit
    cases fault <;> simp [hfault, ModuleFault.IsFirst, hdigit, hne]
  · cases fault with
    | badCharacter c => simp [hfault, ModuleFault.IsFirst, hdigit, find?_isKeyChar_iff]
    | emptyKey => simp [hfault, ModuleFault.IsFirst, hne]
    | leadingDigit => simp [hfault, ModuleFault.IsFirst, hdigit]
    | blankDisplay => simp [hfault]

theorem moduleFault?_eq_none_iff :
    moduleFault? key display = none ↔ IsKey key ∧ ∃ c ∈ display.toList, Text.isWhite c = false := by
  rw [← keyFault?_eq_none_iff, moduleFault?]
  cases keyFault? key with
  | some fault => simp
  | none => simp [Text.trim_eq_nil_iff]

theorem moduleFault?_eq_some_iff :
    moduleFault? key display = some fault ↔ fault.IsFirst key display := by
  have hsplit : moduleFault? key display = some fault ↔ keyFault? key = some fault ∨
      (keyFault? key = none ∧ Text.trim display.toList = [] ∧ .blankDisplay = fault) := by
    rw [moduleFault?]
    cases keyFault? key <;> simp
  rw [hsplit, keyFault?_eq_some_iff display, keyFault?_eq_none_iff, Text.trim_eq_nil_iff]
  cases fault <;> simp [ModuleFault.IsFirst]

theorem DemoModule.ofTexts_eq_ok_iff {m : DemoModule} :
    DemoModule.ofTexts key display = .ok m ↔ m.key = key ∧ m.display = display := by
  constructor
  · intro h
    unfold DemoModule.ofTexts at h
    split at h
    · cases h
    · cases h
      exact ⟨rfl, rfl⟩
  · rintro ⟨rfl, rfl⟩
    unfold DemoModule.ofTexts
    split
    · rename_i fault hfault
      rw [m.valid] at hfault
      cases hfault
    · rfl

theorem DemoModule.ofTexts_eq_error_iff :
    DemoModule.ofTexts key display = .error fault ↔ moduleFault? key display = some fault := by
  unfold DemoModule.ofTexts
  split <;> rename_i hfault <;> simp [hfault]

/-! ## Keys -/

namespace DemoModule

theorem isKey (m : DemoModule) : IsKey m.key :=
  (moduleFault?_eq_none_iff.mp m.valid).1

theorem isKeyChar_of_mem (m : DemoModule) : ∀ c ∈ m.key.toList, isKeyChar c = true := by
  obtain ⟨c, rest, hkey, -, -⟩ := id m.isKey
  obtain ⟨-, hparts⟩ := (isKey_iff hkey).mp m.isKey
  rw [hkey]
  exact fun d hd => isKeyChar_iff.mpr (hparts d hd)

theorem key_ne_empty (m : DemoModule) : m.key ≠ "" := by
  obtain ⟨c, rest, hkey, -, -⟩ := m.isKey
  intro hempty
  rw [hempty] at hkey
  cases hkey

theorem display_ne_empty (m : DemoModule) : m.display ≠ "" := by
  obtain ⟨-, c, hc, -⟩ := moduleFault?_eq_none_iff.mp m.valid
  intro hempty
  rw [hempty] at hc
  cases hc

theorem notMem_key (m : DemoModule) (h : isKeyChar c = false) : c ∉ m.key.toList := by
  intro hmem
  rw [m.isKeyChar_of_mem c hmem] at h
  cases h

theorem slash_notMem_key (m : DemoModule) : '/' ∉ m.key.toList :=
  m.notMem_key (by decide)

/-- The entry that a module is made of. -/
def entry (m : DemoModule) : ModuleEntry :=
  ⟨m.key, m.display⟩

end DemoModule

/-! ## Entries -/

namespace ModuleEntry

variable {entry : ModuleEntry} {m : DemoModule}

theorem toModule_eq_ok_iff : entry.toModule = .ok m ↔ m.entry = entry := by
  obtain ⟨key, display⟩ := entry
  have hentry : m.entry = ⟨key, display⟩ ↔ m.key = key ∧ m.display = display := by
    simp [DemoModule.entry]
  rw [hentry, ← DemoModule.ofTexts_eq_ok_iff, ModuleEntry.toModule]
  cases DemoModule.ofTexts key display <;> simp

theorem exists_toModule_iff :
    (∃ m, entry.toModule = .ok m) ↔
      IsKey entry.key ∧ ∃ c ∈ entry.display.toList, Text.isWhite c = false := by
  rw [← moduleFault?_eq_none_iff]
  constructor
  · rintro ⟨m, h⟩
    rw [← toModule_eq_ok_iff.mp h]
    exact m.valid
  · exact fun h => ⟨⟨entry.key, entry.display, h⟩, toModule_eq_ok_iff.mpr rfl⟩

theorem toModule_eq_error_iff :
    entry.toModule = .error e ↔
      ∃ fault : ModuleFault, fault.IsFirst entry.key entry.display ∧ e = .invalidModule entry.key fault := by
  simp only [← moduleFault?_eq_some_iff, ← DemoModule.ofTexts_eq_error_iff, toModule]
  cases DemoModule.ofTexts entry.key entry.display <;> simp [eq_comm]

end ModuleEntry

namespace Config

variable {c : Config} {modules : List DemoModule}

theorem toModules_eq_ok_iff : c.toModules = .ok modules ↔ modules.map DemoModule.entry = c.modules := by
  have hentry : (fun x m => ModuleEntry.toModule x = .ok m) = fun x m => x = m.entry := by
    funext x m
    exact propext (ModuleEntry.toModule_eq_ok_iff.trans eq_comm)
  rw [toModules, mapM_eq_ok_iff, hentry, eq_comm, ← List.forall₂_eq_eq_eq, List.forall₂_map_right_iff]

theorem exists_toModules_iff :
    (∃ modules, c.toModules = .ok modules) ↔ ∀ x ∈ c.modules, ∃ m, x.toModule = .ok m :=
  exists_mapM_eq_ok_iff

theorem toModules_eq_error_iff :
    c.toModules = .error e ↔ ∃ before x after, c.modules = before ++ x :: after ∧
      (∀ y ∈ before, ∃ m, y.toModule = .ok m) ∧ x.toModule = .error e :=
  mapM_eq_error_iff

end Config

/-- An entry is made into a module, which has its key and its display name, exactly if the key has the form
`[a-z_][a-z0-9_]*` and some character of the display name is not white space. Otherwise the error tells the
key and its first fault, and quotes a character that the key may not have. So the key of a module can stand
for a directory. A configuration has an error exactly if an entry has one, and it is that of the first. -/
theorem entries_are_checked (entry : ModuleEntry) (c : Config) :
    ((∃ m, entry.toModule = .ok m) ↔
      IsKey entry.key ∧ ∃ x ∈ entry.display.toList, Text.isWhite x = false) ∧
    (∀ m, entry.toModule = .ok m ↔ m.key = entry.key ∧ m.display = entry.display) ∧
    (∀ e, entry.toModule = .error e ↔
      ∃ fault : ModuleFault, fault.IsFirst entry.key entry.display ∧ e = .invalidModule entry.key fault) ∧
    (∀ x, (ToolError.invalidModule entry.key (.badCharacter x)).message =
      "invalid module '" ++ entry.key ++ "': " ++
        ("character '" ++ x.toString ++ "' not allowed (use a-z, 0-9 and '_')")) ∧
    (∀ m : DemoModule, m.key ≠ "" ∧ m.key ≠ "." ∧ m.key ≠ ".." ∧ '/' ∉ m.key.toList ∧
      '\\' ∉ m.key.toList) ∧
    ((∃ modules, c.toModules = .ok modules) ↔ ∀ x ∈ c.modules, ∃ m, x.toModule = .ok m) ∧
    ∀ e, c.toModules = .error e ↔ ∃ before x after, c.modules = before ++ x :: after ∧
      (∀ y ∈ before, ∃ m, y.toModule = .ok m) ∧ x.toModule = .error e := by
  refine ⟨ModuleEntry.exists_toModule_iff, fun m => ?_, fun e => ModuleEntry.toModule_eq_error_iff,
    fun _ => rfl, fun m => ?_, Config.exists_toModules_iff, fun e => Config.toModules_eq_error_iff⟩
  · obtain ⟨key, display⟩ := entry
    rw [ModuleEntry.toModule_eq_ok_iff, DemoModule.entry, ModuleEntry.mk.injEq]
  · have hdot : ∀ text : String, '.' ∈ text.toList → m.key ≠ text := by
      rintro _ hmem rfl
      exact m.notMem_key (by decide) hmem
    exact ⟨m.key_ne_empty, hdot "." (by decide), hdot ".." (by decide), m.slash_notMem_key,
      m.notMem_key (by decide)⟩

end DemoScaffold
