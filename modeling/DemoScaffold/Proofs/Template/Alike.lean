import DemoScaffold.Template.Helper
import Mathlib.Data.List.Forall2

/-!
# Alike values

Values are alike if they differ in texts only, and a text is empty where the other one is. Scopes are
alike if they have the same names for alike values. Markers, and the helpers that ask only whether values
count as true, tell alike scopes apart by no fault.
-/

namespace DemoScaffold.Template

/-! ## Results -/

/-- Two results that are the same fault, or of which the values are related. -/
inductive Together {α β ε : Type} (R : α → β → Prop) : Except ε α → Except ε β → Prop where
  | error (fault : ε) : Together R (.error fault) (.error fault)
  | ok {a : α} {b : β} (h : R a b) : Together R (.ok a) (.ok b)

theorem Together.bind {α β γ δ ε : Type} {R : α → β → Prop} {S : γ → δ → Prop} {x : Except ε α}
    {y : Except ε β} {f : α → Except ε γ} {g : β → Except ε δ} (h : Together R x y)
    (hf : ∀ a b, R a b → Together S (f a) (g b)) : Together S (x >>= f) (y >>= g) := by
  cases h with
  | error fault => exact .error fault
  | ok hab => exact hf _ _ hab

theorem Together.refl {α ε : Type} {R : α → α → Prop} (hR : ∀ a, R a a) (x : Except ε α) :
    Together R x x := by
  cases x with
  | error fault => exact .error fault
  | ok a => exact .ok (hR a)

theorem Together.error_iff {α β ε : Type} {R : α → β → Prop} {x : Except ε α} {y : Except ε β}
    (h : Together R x y) (fault : ε) : x = .error fault ↔ y = .error fault := by
  cases h with
  | error fault' => simp
  | ok _ => simp

/-- Lists with the same names in the same order, and related values. -/
inductive Fieldwise {α β : Type} (R : α → β → Prop) :
    List (String × α) → List (String × β) → Prop where
  | nil : Fieldwise R [] []
  | cons {name : String} {a : α} {b : β} {fs : List (String × α)} {gs : List (String × β)}
      (h : R a b) (rest : Fieldwise R fs gs) : Fieldwise R ((name, a) :: fs) ((name, b) :: gs)

theorem Fieldwise.lookup {α β : Type} {R : α → β → Prop} {fs : List (String × α)}
    {gs : List (String × β)} (h : Fieldwise R fs gs) (name : String) :
    Option.Rel R (fs.lookup name) (gs.lookup name) := by
  induction h with
  | nil => exact .none
  | @cons other a b fs gs hab rest ih =>
      rw [List.lookup_cons, List.lookup_cons]
      split
      · exact .some hab
      · exact ih

theorem forall₂_getElem? {α β : Type} {R : α → β → Prop} {xs : List α} {ys : List β}
    (h : List.Forall₂ R xs ys) (i : Nat) : Option.Rel R xs[i]? ys[i]? := by
  induction h generalizing i with
  | nil => exact .none
  | cons hab rest ih =>
      cases i with
      | zero => exact .some hab
      | succ i => simpa using ih i

/-! ## Values -/

/-- Values that differ in texts only, none of which is empty where the other is not. -/
inductive Value.Alike : Value → Value → Prop where
  | null : Value.Alike .null .null
  | flag (b : Bool) : Value.Alike (.flag b) (.flag b)
  | number (n : JsonNumber) : Value.Alike (.number n) (.number n)
  | text {s t : String} (h : s = "" ↔ t = "") : Value.Alike (.text s) (.text t)
  | list {xs ys : List Value} (h : List.Forall₂ Value.Alike xs ys) : Value.Alike (.list xs) (.list ys)
  | record {fs gs : List (String × Value)} (h : Fieldwise Value.Alike fs gs) :
      Value.Alike (.record fs) (.record gs)

mutual
theorem Value.Alike.refl : (v : Value) → v.Alike v
  | .null => .null
  | .flag b => .flag b
  | .number n => .number n
  | .text _ => .text Iff.rfl
  | .list items => .list (alikeItems_refl items)
  | .record fields => .record (alikeFields_refl fields)

theorem alikeItems_refl : (items : List Value) → List.Forall₂ Value.Alike items items
  | [] => .nil
  | v :: rest => .cons (Value.Alike.refl v) (alikeItems_refl rest)

theorem alikeFields_refl : (fields : List (String × Value)) → Fieldwise Value.Alike fields fields
  | [] => .nil
  | (_, v) :: rest => .cons (Value.Alike.refl v) (alikeFields_refl rest)
end

theorem Value.Alike.isTrue {v w : Value} (h : v.Alike w) (zeroCounts : Bool) :
    v.isTrue zeroCounts = w.isTrue zeroCounts := by
  cases h with
  | null => rfl
  | flag b => rfl
  | number n => rfl
  | text h => simp [Value.isTrue, h]
  | list h => cases h <;> rfl
  | record h => cases h <;> rfl

theorem Value.Alike.part? {v w : Value} (h : v.Alike w) (name : String) :
    Together (Option.Rel Value.Alike) (v.part? name) (w.part? name) := by
  cases h with
  | null => exact .ok .none
  | flag b => exact .ok .none
  | number n => exact .ok .none
  | text h => exact .ok .none
  | @list xs ys h =>
      rw [Value.part?, Value.part?]
      cases readIndex? name with
      | none => exact .error _
      | some i => exact .ok (forall₂_getElem? h i)
  | record h => exact .ok (h.lookup name)

theorem Value.Alike.follow {v w : Value} (h : v.Alike w) (names : List String) :
    Together (Option.Rel Value.Alike) (v.follow names) (w.follow names) := by
  induction names generalizing v w with
  | nil => exact .ok (.some h)
  | cons name more ih =>
      rw [Value.follow, Value.follow]
      have hpart := h.part? name
      generalize v.part? name = x at hpart
      generalize w.part? name = y at hpart
      cases hpart with
      | error fault => exact .error fault
      | ok hrel =>
          cases hrel with
          | none => exact .ok .none
          | some hparts => exact ih hparts

/-! ## Scopes -/

/-- Frames with the same names and alike values. -/
structure Frame.Alike (f g : Frame) : Prop where
  value : f.value.Alike g.value
  given : Fieldwise Value.Alike f.given g.given
  named : Fieldwise Value.Alike f.named g.named

/-- Scopes of as many alike frames. -/
structure Scope.Alike (sc sc' : Scope) : Prop where
  root : sc.root.Alike sc'.root
  inner : sc.inner.Alike sc'.inner
  outer : List.Forall₂ Frame.Alike sc.outer sc'.outer

theorem alike_findSome? {fs gs : List Frame} (h : List.Forall₂ Frame.Alike fs gs) (name : String) :
    Option.Rel Value.Alike (fs.findSome? fun frame => frame.named.lookup name)
      (gs.findSome? fun frame => frame.named.lookup name) := by
  induction h with
  | nil => exact .none
  | @cons f g fs gs hfg rest ih =>
      rw [List.findSome?_cons, List.findSome?_cons]
      have hlookup := hfg.named.lookup name
      generalize f.named.lookup name = x at hlookup
      generalize g.named.lookup name = y at hlookup
      cases hlookup with
      | none => exact ih
      | some hvalue => exact .some hvalue

namespace Scope.Alike

variable {sc sc' : Scope}

theorem ofRoot {v w : Value} (h : v.Alike w) : (Scope.ofRoot v).Alike (Scope.ofRoot w) :=
  ⟨h, ⟨h, .nil, .nil⟩, .nil⟩

theorem enter (h : sc.Alike sc') {v w : Value} (hv : v.Alike w) {given given' : List (String × Value)}
    (hgiven : Fieldwise Value.Alike given given') {named named' : List (String × Value)}
    (hnamed : Fieldwise Value.Alike named named') :
    (sc.enter v given named).Alike (sc'.enter w given' named') :=
  ⟨h.root, ⟨hv, hgiven, hnamed⟩, .cons h.inner h.outer⟩

theorem frame? (h : sc.Alike sc') (up : Nat) :
    Option.Rel Frame.Alike (sc.frame? up) (sc'.frame? up) :=
  forall₂_getElem? (.cons h.inner h.outer) up

theorem named? (h : sc.Alike sc') (name : String) :
    Option.Rel Value.Alike (sc.named? name) (sc'.named? name) :=
  alike_findSome? (.cons h.inner h.outer) name

theorem given? (h : sc.Alike sc') (up : Nat) (name : String) :
    Option.Rel Value.Alike (sc.given? up name) (sc'.given? up name) := by
  rw [Scope.given?, Scope.given?]
  have hframe := h.frame? up
  generalize sc.frame? up = x at hframe
  generalize sc'.frame? up = y at hframe
  cases hframe with
  | none => exact .none
  | some hfg => exact hfg.given.lookup name

theorem valueAt (h : sc.Alike sc') (up : Nat) : (sc.valueAt up).Alike (sc'.valueAt up) := by
  rw [Scope.valueAt, Scope.valueAt]
  have hframe := h.frame? up
  generalize sc.frame? up = x at hframe
  generalize sc'.frame? up = y at hframe
  cases hframe with
  | none => exact h.inner.value
  | some hfg => exact hfg.value

/-- A marker is refused, or has a value, in both of two alike scopes or in neither. -/
theorem value? (h : sc.Alike sc') (m : Marker) :
    Together (Option.Rel Value.Alike) (m.value? sc) (m.value? sc') := by
  rw [Marker.value?, Marker.value?]
  split
  · exact h.root.follow m.names
  · split
    · exact .ok (.some h.inner.value)
    · exact .ok (h.given? m.up _)
    · exact .ok (.some (h.valueAt m.up))
    · rename_i name more _ _
      have hnamed := h.named? name
      generalize sc.named? name = x at hnamed
      generalize sc'.named? name = y at hnamed
      cases hnamed with
      | none => exact (h.valueAt m.up).follow (name :: more)
      | some hvalue => exact hvalue.follow more

end Scope.Alike

end DemoScaffold.Template
