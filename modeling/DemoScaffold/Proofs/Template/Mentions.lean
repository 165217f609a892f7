import DemoScaffold.Proofs.Text.Lines

/-!
# Mentions

What the lines of a generated file mention: files that they include and namespaces that they open or
close. A line mentions something if it has one of six forms, which exclude each other.
-/

namespace DemoScaffold

open Text (IsLine)

/-- The forms of lines that mention something. -/
inductive LineForm where
  | quoted
  | angled
  | opening
  | closing
  | beginMacro
  | endMacro
deriving DecidableEq, Repr

namespace LineForm

def all : List LineForm := [.quoted, .angled, .opening, .closing, .beginMacro, .endMacro]

/-- What stands in front of what is mentioned. -/
def before : LineForm → List Char
  | .quoted => ['#', 'i', 'n', 'c', 'l', 'u', 'd', 'e', ' ', '"']
  | .angled => ['#', 'i', 'n', 'c', 'l', 'u', 'd', 'e', ' ', '<']
  | .opening => ['n', 'a', 'm', 'e', 's', 'p', 'a', 'c', 'e', ' ']
  | .closing => ['}', ' ', '/', '/', ' ', 'n', 'a', 'm', 'e', 's', 'p', 'a', 'c', 'e', ' ']
  | .beginMacro =>
    ['F', 'B', '_', 'N', 'A', 'M', 'E', 'S', 'P', 'A', 'C', 'E', '_', 'B', 'E', 'G', 'I', 'N', '(']
  | .endMacro => ['F', 'B', '_', 'N', 'A', 'M', 'E', 'S', 'P', 'A', 'C', 'E', '_', 'E', 'N', 'D', '(']

/-- What stands behind it, up to the end of the line. -/
def after : LineForm → List Char
  | .quoted => ['"']
  | .angled => ['>']
  | .opening => [' ', '\x7b']
  | .closing => []
  | .beginMacro | .endMacro => [')']

/-- What a line of this form mentions. -/
def part? (f : LineForm) (line : List Char) : Option (List Char) :=
  if f.before <+: line ∧ f.after <:+ line.drop f.before.length then
    some ((line.drop f.before.length).take ((line.drop f.before.length).length - f.after.length))
  else none

variable {f g : LineForm} {line s : List Char}

theorem mem_all (f : LineForm) : f ∈ all := by
  cases f <;> decide

theorem part?_append (f : LineForm) (s : List Char) :
    f.part? (f.before ++ (s ++ f.after)) = some s := by
  have hdrop : (f.before ++ (s ++ f.after)).drop f.before.length = s ++ f.after := List.drop_left
  rw [part?, hdrop, if_pos ⟨List.prefix_append _ _, List.suffix_append _ _⟩, List.length_append,
    Nat.add_sub_cancel, List.take_left]

theorem part?_of_not_prefix (h : ¬ f.before <+: line) : f.part? line = none :=
  if_neg fun hboth => h hboth.1

/-- A text does not begin like a form if neither of the two begins the other. -/
def IsApart (s : List Char) : Prop :=
  ∀ f ∈ all, ¬ f.before <+: s ∧ ¬ s <+: f.before

instance (s : List Char) : Decidable (IsApart s) := inferInstanceAs (Decidable (∀ _ ∈ _, _))

theorem before_apart (h : f ≠ g) : ¬ f.before <+: g.before := by
  cases f <;> cases g <;> first | exact absurd rfl h | decide

end LineForm

/-- The words that every form begins with or has in front of it. -/
def keywords : List (List Char) := [
  ['#', 'i', 'n', 'c', 'l', 'u', 'd', 'e'],
  ['n', 'a', 'm', 'e', 's', 'p', 'a', 'c', 'e'],
  ['N', 'A', 'M', 'E', 'S', 'P', 'A', 'C', 'E']]

def HasKeyword (line : List Char) : Prop :=
  ∃ w ∈ keywords, w <:+: line

instance (line : List Char) : Decidable (HasKeyword line) :=
  inferInstanceAs (Decidable (∃ w ∈ keywords, w <:+: line))

/-- The form of a line and what it mentions. -/
def mention? (line : List Char) : Option (LineForm × String) :=
  LineForm.all.findSome? fun f => (f.part? line).map fun s => (f, String.ofList s)

/-- A text in which includes and namespaces are spoken of only in the six forms. -/
def AllInForms (s : String) : Prop :=
  ∀ line ∈ Text.lines s.toList, HasKeyword line → (mention? line).isSome

/-- What the lines of a text mention, in order. -/
def mentioned (s : String) : List (LineForm × String) :=
  (Text.lines s.toList).filterMap mention?

variable {line s : List Char} {ls : List (List Char)}

theorem findSome?_of_unique {α β : Type} {φ : α → Option β} {xs : List α} {a : α} {y : β}
    (ha : a ∈ xs) (hy : φ a = some y) (h : ∀ x ∈ xs, x ≠ a → φ x = none) :
    xs.findSome? φ = some y := by
  induction xs with
  | nil => cases ha
  | cons x rest ih =>
      by_cases hx : x = a
      · rw [List.findSome?_cons, hx, hy]
      · obtain ⟨hnone, hrest⟩ := List.forall_mem_cons.mp h
        rw [List.findSome?_cons, hnone hx]
        exact ih ((List.mem_cons.mp ha).resolve_left (Ne.symm hx)) hrest

theorem mention?_of_form (f : LineForm) (s : List Char) :
    mention? (f.before ++ (s ++ f.after)) = some (f, String.ofList s) := by
  refine findSome?_of_unique f.mem_all (by rw [f.part?_append, Option.map_some]) fun g _ hg => ?_
  have hprefix : ¬ g.before <+: f.before ++ (s ++ f.after) := by
    intro h
    rcases List.prefix_or_prefix_of_prefix h (List.prefix_append _ _) with hgf | hfg
    · exact LineForm.before_apart hg hgf
    · exact LineForm.before_apart (Ne.symm hg) hfg
  rw [LineForm.part?_of_not_prefix hprefix, Option.map_none]

theorem mention?_eq_none (h : ∀ f : LineForm, ¬ f.before <+: line) : mention? line = none := by
  rw [mention?, List.findSome?_eq_none_iff]
  intro f _
  rw [LineForm.part?_of_not_prefix (h f), Option.map_none]

theorem hasKeyword_before (f : LineForm) : HasKeyword f.before := by
  cases f <;> decide

theorem mention?_of_noKeyword (h : ¬ HasKeyword line) : mention? line = none := by
  refine mention?_eq_none fun f hprefix => h ?_
  obtain ⟨w, hw, hinfix⟩ := hasKeyword_before f
  exact ⟨w, hw, hinfix.trans hprefix.isInfix⟩

theorem mention?_of_apart (h : LineForm.IsApart s) (rest : List Char) : mention? (s ++ rest) = none := by
  refine mention?_eq_none fun f hprefix => ?_
  rcases List.prefix_or_prefix_of_prefix hprefix (List.prefix_append s rest) with hf | hs
  · exact (h f f.mem_all).1 hf
  · exact (h f f.mem_all).2 hs

theorem mentioned_unlines (h : ∀ l ∈ ls, IsLine l) :
    mentioned (String.ofList (Text.unlines ls)) = ls.filterMap mention? := by
  rw [mentioned, String.toList_ofList, Text.lines_unlines h]

theorem allInForms_unlines (h : ∀ l ∈ ls, IsLine l)
    (hforms : ∀ l ∈ ls, HasKeyword l → (mention? l).isSome) :
    AllInForms (String.ofList (Text.unlines ls)) := by
  rw [AllInForms, String.toList_ofList, Text.lines_unlines h]
  exact hforms

/-- What ends in a line feed mentions the same, whatever follows. -/
theorem mentioned_append_feed (s rest : String) :
    mentioned (s ++ "\n" ++ rest) = mentioned (s ++ "\n") ++ mentioned rest := by
  have hlines : Text.lines (s ++ "\n" ++ rest).toList =
      Text.lines (s ++ "\n").toList ++ Text.lines rest.toList := by
    simpa using Text.lines_append_feed s.toList rest.toList
  rw [mentioned, hlines, List.filterMap_append, ← mentioned, ← mentioned]

theorem mentioned_append_feeds (s u rest : String) :
    mentioned (s ++ "\n" ++ (u ++ "\n") ++ rest) =
      mentioned (s ++ "\n") ++ mentioned (u ++ "\n") ++ mentioned rest := by
  have hfirst : s ++ "\n" ++ (u ++ "\n") ++ rest = s ++ "\n" ++ (u ++ "\n" ++ rest) :=
    String.append_assoc
  rw [hfirst, mentioned_append_feed s, mentioned_append_feed u]
  exact (List.append_assoc _ _ _).symm

end DemoScaffold
