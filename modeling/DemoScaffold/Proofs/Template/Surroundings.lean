import DemoScaffold.Template.Helper
import Mathlib.Tactic.SplitIfs

/-!
# Markers among blocks

Whether a marker stands for one of the bindings, for all of them together, or for something else can be
told from the blocks around it. If a binding is removed, only the markers that stand for it or for all
bindings have another value (`value?_erase`).
-/

namespace DemoScaffold.Template

/-! ## Bindings -/

theorem lookup_fieldsOf (b : Bindings) (name : String) :
    (fieldsOf b.entries).lookup name = (b.get? name).map Value.text := by
  rw [Bindings.get?, fieldsOf]
  induction b.entries with
  | nil => rfl
  | cons e rest ih =>
      rw [List.map_cons, List.lookup_cons, List.find?_cons]
      by_cases h : e.1 = name
      · simp [h]
      · have hne : (name == e.1) = false := by simpa using Ne.symm h
        rw [hne]
        simpa [h] using ih

theorem get?_erase_self (b : Bindings) (name : String) : (b.erase name).get? name = none := by
  simp [Bindings.erase, Bindings.get?]

theorem get?_erase_of_ne (b : Bindings) {name other : String} (h : other ≠ name) :
    (b.erase name).get? other = b.get? other := by
  have hboth (e : String × String) : (e.1 ≠ name ∧ e.1 = other) ↔ e.1 = other :=
    and_iff_right_of_imp fun heq => heq ▸ h
  simp [Bindings.erase, Bindings.get?, List.find?_filter, hboth]

theorem follow_erase_self (b : Bindings) (name : String) (more : List String) :
    (Value.ofBindings (b.erase name)).follow (name :: more) = .ok none := by
  rw [Value.follow, Value.ofBindings, Value.part?, lookup_fieldsOf, get?_erase_self]
  rfl

theorem follow_erase_of_ne (b : Bindings) {name other : String} (h : other ≠ name)
    (more : List String) :
    (Value.ofBindings (b.erase name)).follow (other :: more) =
      (Value.ofBindings b).follow (other :: more) := by
  rw [Value.follow, Value.follow, Value.ofBindings, Value.ofBindings, Value.part?, Value.part?,
    lookup_fieldsOf, lookup_fieldsOf, get?_erase_of_ne b h]

/-! ## Scopes -/

/-- The scope inside some blocks, the innermost first, around which there are only the bindings. -/
def Scope.around (root : Value) : List Frame → Scope
  | [] => .ofRoot root
  | f :: rest => ⟨root, f, rest ++ [⟨root, [], []⟩]⟩

variable {root : Value} {inside : List Frame}

theorem frames_around (root : Value) (inside : List Frame) :
    (Scope.around root inside).inner :: (Scope.around root inside).outer =
      inside ++ [⟨root, [], []⟩] := by
  cases inside <;> rfl

theorem root_around (root : Value) (inside : List Frame) : (Scope.around root inside).root = root := by
  cases inside <;> rfl

theorem enter_around (root value : Value) (given named : List (String × Value))
    (inside : List Frame) :
    (Scope.around root inside).enter value given named =
      Scope.around root (⟨value, given, named⟩ :: inside) := by
  rw [Scope.enter, root_around, frames_around]
  rfl

theorem inner_given_around (root root' : Value) (inside : List Frame) :
    (Scope.around root inside).inner.given = (Scope.around root' inside).inner.given := by
  cases inside <;> rfl

theorem named?_around (root : Value) (inside : List Frame) (name : String) :
    (Scope.around root inside).named? name =
      inside.findSome? fun frame => frame.named.lookup name := by
  rw [Scope.named?, frames_around, List.findSome?_append]
  simp

theorem given?_around (root root' : Value) (inside : List Frame) (up : Nat) (name : String) :
    (Scope.around root inside).given? up name = (Scope.around root' inside).given? up name := by
  simp only [Scope.given?, Scope.frame?, frames_around]
  by_cases hup : up < inside.length
  · rw [List.getElem?_append_left hup, List.getElem?_append_left hup]
  · rw [List.getElem?_append_right (Nat.le_of_not_lt hup),
      List.getElem?_append_right (Nat.le_of_not_lt hup)]
    cases up - inside.length <;> rfl

theorem valueAt_around_bindings {up : Nat} (h : inside.length = 0 ∨ up = inside.length) :
    (Scope.around root inside).valueAt up = root := by
  rw [Scope.valueAt, Scope.frame?, frames_around]
  rcases h with hempty | hup
  · rw [List.length_eq_zero_iff.mp hempty]
    cases up <;> rfl
  · simp [hup]

theorem valueAt_around_block (root root' : Value) {up : Nat}
    (h : ¬ (inside.length = 0 ∨ up = inside.length)) :
    (Scope.around root inside).valueAt up = (Scope.around root' inside).valueAt up := by
  obtain ⟨hne, hup⟩ := not_or.mp h
  obtain ⟨f, rest, rfl⟩ := List.exists_cons_of_length_pos (Nat.pos_of_ne_zero hne)
  simp only [Scope.valueAt, Scope.frame?, frames_around]
  by_cases hlt : up < (f :: rest).length
  · rw [List.getElem?_append_left hlt, List.getElem?_append_left hlt, List.getElem?_eq_getElem hlt]
    rfl
  · have hbeyond : (f :: rest).length + 1 ≤ up := by omega
    rw [List.getElem?_eq_none (by simpa using hbeyond), List.getElem?_eq_none (by simpa using hbeyond)]
    rfl

/-! ## Surroundings -/

/-- The blocks with values of their own around some markup: how many, and the names that their tags give
to values. -/
structure Surroundings where
  blocks : Nat
  names : List String
deriving DecidableEq, Repr

namespace Surroundings

def outermost : Surroundings := ⟨0, []⟩

def enter (sr : Surroundings) (names : List String) : Surroundings :=
  ⟨sr.blocks + 1, names ++ sr.names⟩

/-- Frames of so many blocks, in which those names are given to values. -/
structure Fits (sr : Surroundings) (inside : List Frame) : Prop where
  blocks : inside.length = sr.blocks
  names : ∀ name ∈ sr.names, (inside.findSome? fun frame => frame.named.lookup name).isSome

theorem outermost_fits : outermost.Fits [] :=
  ⟨rfl, fun _ h => by cases h⟩

theorem Fits.enter {sr : Surroundings} (h : sr.Fits inside) {names : List String} {f : Frame}
    (hnames : ∀ name ∈ names, (f.named.lookup name).isSome) : (sr.enter names).Fits (f :: inside) := by
  refine ⟨congrArg (· + 1) h.blocks, fun name hname => ?_⟩
  rw [List.findSome?_cons]
  cases hf : f.named.lookup name with
  | some v => rfl
  | none =>
      rcases List.mem_append.mp hname with hnew | hold
      · have := hnames name hnew
        rw [hf] at this
        cases this
      · exact h.names name hold

end Surroundings

namespace Marker

/-- Whether the names of a marker lead from the bindings, and not from the value of a block or from what
a block gives. -/
def leadsFromBindings (sr : Surroundings) (m : Marker) : Bool :=
  m.fromRoot ||
    if m.fromBlock then m.names.isEmpty && sr.blocks = 0 else sr.blocks = 0 || m.up = sr.blocks

/-- Whether a marker stands for all bindings together. -/
def isWhole (sr : Surroundings) (m : Marker) : Bool :=
  m.leadsFromBindings sr && m.names.isEmpty

/-- Whether a marker stands for a binding or a part of it. A value to which the tag of a block gives the
same name hides the binding, unless the marker starts at the bindings by name. -/
def refersTo (name : String) (sr : Surroundings) (m : Marker) : Bool :=
  m.leadsFromBindings sr && m.names.head? = some name && (m.fromRoot || !sr.names.contains name)

variable {sr : Surroundings} {m : Marker} {b : Bindings} {name : String}

theorem value?_of_isWhole (hfits : sr.Fits inside) (h : m.isWhole sr = true) :
    m.value? (.around root inside) = .ok (some root) := by
  obtain ⟨hstart, hnames⟩ := Bool.and_eq_true_iff.mp h
  rw [List.isEmpty_iff] at hnames
  rw [leadsFromBindings] at hstart
  rw [value?, hnames, root_around]
  cases hroot : m.fromRoot with
  | true => rfl
  | false =>
      cases hblock : m.fromBlock with
      | true =>
          simp only [hroot, hblock, hnames, Bool.false_or, if_true, List.isEmpty_nil, Bool.true_and,
            decide_eq_true_eq] at hstart
          rw [← hfits.blocks, List.length_eq_zero_iff] at hstart
          rw [hstart]
          rfl
      | false =>
          simp only [hroot, hblock, Bool.false_or, Bool.false_eq_true, if_false, Bool.or_eq_true,
            decide_eq_true_eq, ← hfits.blocks] at hstart
          simp only [Bool.false_eq_true, if_false, valueAt_around_bindings hstart]

theorem leadsFromBindings_of_plain (hroot : m.fromRoot = false) (hblock : m.fromBlock = false)
    (hfits : sr.Fits inside) :
    m.leadsFromBindings sr = true ↔ inside.length = 0 ∨ m.up = inside.length := by
  simp [leadsFromBindings, hroot, hblock, hfits.blocks]

/-- The names of a marker that starts at the bindings, where no block gives the first one to a value. -/
theorem follow_erase_cases (b : Bindings) (name first : String) (more : List String) :
    (Value.ofBindings (b.erase name)).follow (first :: more) =
        (Value.ofBindings b).follow (first :: more) ∨
      first = name ∧ (Value.ofBindings (b.erase name)).follow (first :: more) = .ok none := by
  by_cases hname : first = name
  · subst hname
    exact .inr ⟨rfl, follow_erase_self b first more⟩
  · exact .inl (follow_erase_of_ne b hname more)

theorem value?_erase_of_plain (hfits : sr.Fits inside) (hm : m.isWhole sr = false)
    (hroot : m.fromRoot = false) (hblock : m.fromBlock = false) :
    m.value? (.around (.ofBindings (b.erase name)) inside) =
        m.value? (.around (.ofBindings b) inside) ∨
      m.refersTo name sr = true ∧
        m.value? (.around (.ofBindings (b.erase name)) inside) = .ok none := by
  have hleads := leadsFromBindings_of_plain hroot hblock hfits
  by_cases hstart : inside.length = 0 ∨ m.up = inside.length
  · rw [value?, value?, hroot, hblock]
    cases hnames : m.names with
    | nil => simp [isWhole, hleads.mpr hstart, hnames] at hm
    | cons first more =>
        simp only [Bool.false_eq_true, if_false, named?_around, valueAt_around_bindings hstart]
        cases hnamed : inside.findSome? fun frame => frame.named.lookup first with
        | some v => exact .inl rfl
        | none =>
            rcases follow_erase_cases b name first more with hsame | ⟨rfl, hnone⟩
            · exact .inl hsame
            · have hfree : first ∉ sr.names := fun hmem => by
                have := hfits.names first hmem
                rw [hnamed] at this
                cases this
              refine .inr ⟨?_, hnone⟩
              simp [refersTo, hleads.mpr hstart, hnames, hfree]
  · left
    rw [value?, value?, hroot, hblock]
    simp only [Bool.false_eq_true, if_false, named?_around]
    rw [valueAt_around_block (.ofBindings (b.erase name)) (.ofBindings b) hstart]
    cases m.names with
    | nil => rfl
    | cons first more => rfl

/-- Without a binding, a marker that does not stand for all bindings has the value that it has with it,
unless it refers to it and has none. -/
theorem value?_erase (hfits : sr.Fits inside) (hm : m.isWhole sr = false) :
    m.value? (.around (.ofBindings (b.erase name)) inside) =
        m.value? (.around (.ofBindings b) inside) ∨
      m.refersTo name sr = true ∧
        m.value? (.around (.ofBindings (b.erase name)) inside) = .ok none := by
  cases hroot : m.fromRoot with
  | true =>
      rw [value?, value?, hroot]
      simp only [if_true, root_around]
      cases hnames : m.names with
      | nil => simp [isWhole, leadsFromBindings, hroot, hnames] at hm
      | cons first more =>
          rcases follow_erase_cases b name first more with hsame | ⟨rfl, hnone⟩
          · exact .inl hsame
          · exact .inr ⟨by simp [refersTo, leadsFromBindings, hroot, hnames], hnone⟩
  | false =>
      cases hblock : m.fromBlock with
      | false => exact value?_erase_of_plain hfits hm hroot hblock
      | true =>
          left
          rw [value?, value?, hroot, hblock]
          cases hnames : m.names with
          | nil =>
              have hne : inside ≠ [] := by
                rintro rfl
                simp [isWhole, leadsFromBindings, hblock, hnames, ← hfits.blocks] at hm
              obtain ⟨f, rest, rfl⟩ := List.exists_cons_of_ne_nil hne
              rfl
          | cons first more =>
              simp only [Bool.false_eq_true, if_false]
              rw [given?_around]

end Marker

end DemoScaffold.Template
