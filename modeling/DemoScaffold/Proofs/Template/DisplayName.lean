import DemoScaffold.Proofs.Template.Demo
import DemoScaffold.Proofs.Text.StringLiteral

/-!
# The name in the header

The header declares the name of its module with a string literal, and the display name is written between
the quotes as it is. So the literal has the display name as its value exactly if every character of it
stands for itself in a literal.
-/

namespace DemoScaffold

open Text.StringLiteral (IsPlain)

/-! ## Reading the declaration -/

/-- What stands behind the first place at which a text says `mark`. -/
def Text.after? (mark : List Char) : List Char → Option (List Char)
  | [] => none
  | c :: rest =>
    if mark.isPrefixOf (c :: rest) then some ((c :: rest).drop mark.length)
    else after? mark rest

/-- How the literal of a name is announced. -/
def nameMark : List Char :=
  ['N', 'A', 'M', 'E', ' ', '=', ' ']

/-- What makes a literal a view of a string and ends the declaration. -/
def viewEnd : List Char :=
  ['s', 'v', ';']

/-- The bytes of the name that a header declares: the value of the string literal that stands behind the
first `NAME = ` and has `sv;` behind its closing quote. -/
def declaredName? (header : String) : Option (List UInt8) := do
  match ← Text.after? nameMark header.toList with
  | '"' :: literal =>
    let (value, left) ← Text.StringLiteral.read none literal
    if viewEnd.isPrefixOf left then some value else none
  | _ => none

/-- A mark is found where it is if the text before it does not have its first character. -/
theorem Text.after?_append {c : Char} {mark s : List Char} (hmark : mark.head? = some c) (h : c ∉ s)
    (t : List Char) : after? mark (s ++ (mark ++ t)) = some t := by
  obtain ⟨mark, rfl⟩ := List.head?_eq_some_iff.mp hmark
  induction s with
  | nil =>
      have hbegins : (c :: mark).isPrefixOf (c :: mark ++ t) = true :=
        List.isPrefixOf_iff_prefix.mpr (List.prefix_append _ _)
      rw [List.nil_append, List.cons_append, after?, ← List.cons_append, if_pos hbegins,
        List.drop_left]
  | cons x rest ih =>
      obtain ⟨hx, hrest⟩ := not_or.mp (mt List.mem_cons.mpr h)
      have hnot : (c :: mark).isPrefixOf (x :: (rest ++ (c :: mark ++ t))) = false := by
        rw [List.isPrefixOf, beq_eq_false_iff_ne.mpr hx, Bool.false_and]
      rw [List.cons_append, after?, hnot, if_neg Bool.false_ne_true, ih hrest]

/-! ## The header -/

namespace Template

variable {text : String → String} {key : String} {ps : List Pattern} {c : Char}

theorem Pattern.mem_filled {p : Pattern} (h : c ∈ p.filled text) :
    c ∈ p.written ∨ ∃ name ∈ p.names, c ∈ (text name).toList := by
  induction p with
  | last s => exact .inl h
  | slot s apart x rest ih =>
      simp only [filled, written, names, List.mem_append, List.mem_cons, exists_eq_or_imp] at h ⊢
      rcases h with h | h | h
      · exact .inl (.inl h)
      · exact .inr (.inl h)
      · exact (ih h).imp (fun h => .inr (.inr h)) .inr

theorem notMem_linesText (hfeed : c ≠ '\n') (hkey : c ∉ key.toList) (hps : ∀ p ∈ ps, c ∉ p.written) :
    c ∉ (linesText key ps).toList := by
  rw [linesText, String.toList_ofList]
  intro hmem
  obtain ⟨line, hline, hc⟩ := List.mem_flatMap.mp hmem
  obtain ⟨p, hp, rfl⟩ := List.mem_map.mp hline
  rcases List.mem_append.mp hc with hc | hc
  · rcases Pattern.mem_filled hc with hwritten | ⟨-, -, hname⟩
    · exact hps p hp hwritten
    · exact hkey hname
  · exact hfeed (List.mem_singleton.mp hc)

theorem notMem_interfaceAbove (m : DemoModule) : 'N' ∉ (linesText m.key interfaceAbove).toList :=
  notMem_linesText (by decide) (fun h => absurd (m.isKeyChar_of_mem _ h) (by decide)) (by decide +kernel)

theorem toList_declaration {opening closing feed : String} {start : List Char}
    (hopening : opening.toList = start ++ (nameMark ++ ['"']))
    (hclosing : closing.toList = '"' :: viewEnd) (hfeed : feed.toList = ['\n']) (d : String) :
    (opening ++ d ++ closing ++ feed).toList =
      start ++ (nameMark ++ '"' :: (d.toList ++ '"' :: (viewEnd ++ ['\n']))) := by
  simp [hopening, hclosing, hfeed]

/-- The first `NAME = ` of a header is the one of its declaration, and the display name and the rest of the
line stand behind the quote after it. -/
theorem declaredName?_header (m : DemoModule) (d below : String) :
    declaredName? (linesText m.key interfaceAbove ++ nameDeclaration d ++ below) =
      (Text.StringLiteral.read none (d.toList ++ '"' :: (viewEnd ++ '\n' :: below.toList))).bind
        fun (value, left) => if viewEnd.isPrefixOf left then some value else none := by
  obtain ⟨start, hstart, hdeclaration⟩ : ∃ start, 'N' ∉ start ∧ (nameDeclaration d).toList =
      start ++ (nameMark ++ '"' :: (d.toList ++ '"' :: (viewEnd ++ ['\n']))) :=
    ⟨"inline constexpr std::string_view ".toList, by decide +kernel,
      toList_declaration (by decide +kernel) (by decide +kernel) (by decide +kernel) d⟩
  have htext : (linesText m.key interfaceAbove ++ nameDeclaration d ++ below).toList =
      ((linesText m.key interfaceAbove).toList ++ start) ++
        (nameMark ++ '"' :: (d.toList ++ '"' :: (viewEnd ++ '\n' :: below.toList))) := by
    rw [String.toList_append, String.toList_append, hdeclaration]
    simp
  rw [declaredName?, htext, Text.after?_append rfl (List.not_mem_append (notMem_interfaceAbove m) hstart)]
  rfl

end Template

theorem get?_interface (b : Bindings) :
    (TemplateSet.demo.get? .interface).map (·.render b) =
      some ((Template.ofBody .interface (TemplateSet.ofLines TemplateSet.demoInterface)).render b) :=
  rfl

/-- The header declares the display name as its module's name if and only if every character of it stands
for itself in a string literal: quotes, backslashes and the ends of lines are not escaped. -/
theorem declaredName?_eq_display_iff (m : DemoModule) :
    ∃ header, (TemplateSet.demo.get? .interface).map (·.render m.bindings) = some (.ok header) ∧
      (declaredName? header = some (Text.Utf8.encode m.display.toList) ↔
        ∀ c ∈ m.display.toList, IsPlain c) := by
  refine ⟨_, by rw [get?_interface, Template.render_interface], ?_⟩
  rw [Template.declaredName?_header]
  constructor
  · intro h
    obtain ⟨⟨value, left⟩, hread, hvalue⟩ := Option.bind_eq_some_iff.mp h
    obtain ⟨-, hvalue⟩ := Option.ite_none_right_eq_some.mp hvalue
    rw [Option.some.inj hvalue] at hread
    exact (Text.StringLiteral.read_eq_encode_iff (by decide)).mp ⟨left, hread⟩
  · intro hplain
    rw [Text.StringLiteral.read_plain hplain]
    rfl

/-- A module with quotes in its display name. -/
def quotedFog : DemoModule where
  key := "fog"
  display := "Fog \"2\""
  valid := by decide +kernel

/-- A quote in the display name ends the literal, and no name is declared. -/
theorem quotedFog_declares_nothing :
    ∃ header, (TemplateSet.demo.get? .interface).map (·.render quotedFog.bindings) = some (.ok header) ∧
      declaredName? header = none := by
  refine ⟨_, by rw [get?_interface, Template.render_interface], ?_⟩
  have hdisplay : quotedFog.display.toList = ['F', 'o', 'g', ' ', '"', '2', '"'] := by decide +kernel
  rw [Template.declaredName?_header, hdisplay]
  rfl

end DemoScaffold
