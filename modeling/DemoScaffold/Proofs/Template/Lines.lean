import DemoScaffold.Proofs.Template.Patterns
import DemoScaffold.Proofs.Text.Lines
import DemoScaffold.Template.Demo

/-!
# Templates line by line

Patterns that are written as lines one after the other make a pattern again. So a template whose lines
are patterns is rendered line by line (`render_ofLines`).
-/

namespace DemoScaffold.Template

open Text (unlines)

variable {b : Bindings} {text : String → String}

/-! ## Lines of patterns -/

theorem not_braces_line {s u : List Char} (hs : ¬ ['\x7b', '\x7b'] <:+: s)
    (hu : ¬ ['\x7b', '\x7b'] <:+: u) : ¬ ['\x7b', '\x7b'] <:+: s ++ '\n' :: u := by
  induction s with
  | nil =>
      rw [List.nil_append, List.infix_cons_iff]
      rintro (hstart | hinside)
      · simp at hstart
      · exact hu hinside
  | cons c rest ih =>
      rw [List.cons_append, List.infix_cons_iff]
      rintro (hstart | hinside)
      · rw [List.cons_prefix_cons] at hstart
        cases rest with
        | nil => simp at hstart
        | cons d more =>
            rw [List.cons_append, List.cons_prefix_cons] at hstart
            refine hs (List.IsPrefix.isInfix ?_)
            rw [List.cons_prefix_cons, List.cons_prefix_cons]
            exact ⟨hstart.1, hstart.2.1, List.nil_prefix⟩
      · exact ih (fun h => hs (h.trans (List.suffix_cons c rest).isInfix)) hinside

/-- A literal text, a line feed and another literal text. -/
def LiteralText.line (s u : LiteralText) : LiteralText :=
  ⟨s.chars ++ '\n' :: u.chars, not_braces_line s.noBraces u.noBraces⟩

theorem LiteralText.endsApart_line {s u : LiteralText} (h : u.EndsApart) : (s.line u).EndsApart := by
  have hlast : (s.line u).chars.getLast? = some (u.chars.getLast?.getD '\n') := by
    rw [LiteralText.line, List.getLast?_append, List.getLast?_cons]
    rfl
  rw [LiteralText.EndsApart, hlast]
  cases hu : u.chars.getLast? with
  | none => simp
  | some c =>
      rw [EndsApart, hu] at h
      simpa using h

theorem not_braces_nil : ¬ ['\x7b', '\x7b'] <:+: ([] : List Char) := by
  decide

def LiteralText.empty : LiteralText := ⟨[], not_braces_nil⟩

namespace Pattern

/-- A pattern, a line feed and another pattern. -/
def line : Pattern → Pattern → Pattern
  | .last s, .last u => .last (s.line u)
  | .last s, .slot u apart x rest => .slot (s.line u) (LiteralText.endsApart_line apart) x rest
  | .slot s apart x rest, q => .slot s apart x (rest.line q)

/-- The pattern of lines, each with a line feed at its end. -/
def ofLines : List Pattern → Pattern
  | [] => .last .empty
  | p :: rest => p.line (ofLines rest)

theorem written_line (p q : Pattern) : (p.line q).written = p.written ++ '\n' :: q.written := by
  induction p with
  | last s => cases q <;> simp [line, written, LiteralText.line]
  | slot s apart x rest ih => simp [line, written, ih]

theorem names_line (p q : Pattern) : (p.line q).names = p.names ++ q.names := by
  induction p with
  | last s => cases q <;> rfl
  | slot s apart x rest ih => simp [line, names, ih]

theorem filled_line (p q : Pattern) :
    (p.line q).filled text = p.filled text ++ '\n' :: q.filled text := by
  induction p with
  | last s => cases q <;> simp [line, filled, LiteralText.line]
  | slot s apart x rest ih => simp [line, filled, ih]

theorem filled_congr {text' : String → String} {p : Pattern}
    (h : ∀ name ∈ p.names, text name = text' name) : p.filled text = p.filled text' := by
  induction p with
  | last s => rfl
  | slot s apart x rest ih =>
      obtain ⟨hx, hrest⟩ := List.forall_mem_cons.mp h
      rw [filled, filled, hx, ih hrest]

theorem written_ofLines (ps : List Pattern) : (ofLines ps).written = unlines (ps.map written) := by
  induction ps with
  | nil => rfl
  | cons p rest ih => simp [ofLines, written_line, ih, unlines]

theorem names_ofLines (ps : List Pattern) : (ofLines ps).names = ps.flatMap names := by
  induction ps with
  | nil => rfl
  | cons p rest ih => rw [ofLines, names_line, ih, List.flatMap_cons]

theorem filled_ofLines (ps : List Pattern) :
    (ofLines ps).filled text = unlines (ps.map (filled text)) := by
  induction ps with
  | nil => rfl
  | cons p rest ih => simp [ofLines, filled_line, ih, unlines]

end Pattern

/-! ## Rendering -/

theorem toList_ofLines (ls : List String) :
    (TemplateSet.ofLines ls).toList = unlines (ls.map String.toList) :=
  Text.toList_join_feed ls

/-- A pattern whose names are all bound becomes its literal texts with the bound ones between them. -/
theorem renderBody_written (p : Pattern) (h : ∀ name ∈ p.names, (b.get? name).isSome) :
    renderBody (String.ofList p.written) b =
      .ok (String.ofList (p.filled fun name => (b.get? name).getD "")) := by
  have hfind : (p.names.find? fun name => (b.get? name).isNone) = none := by
    rw [List.find?_eq_none]
    intro name hname
    simp [Option.isNone_eq_false_iff.mpr (h name hname)]
  have hwrite : (p.markup.write (maxInsertions + 1) ⟨.ofRoot (.ofBindings b), [], none⟩ .start).map
      Prod.fst = p.outcome b := p.writeWith_markup .start
  rw [Pattern.outcome, hfind] at hwrite
  rw [renderBody, String.toList_ofList, p.parse_written]
  dsimp only
  generalize p.markup.write (maxInsertions + 1) ⟨.ofRoot (.ofBindings b), [], none⟩ .start = written
    at hwrite
  cases written with
  | error fault => cases hwrite
  | ok w => exact congrArg (fun s => Except.ok (String.ofList s)) (Except.ok.inj hwrite)

theorem render_ofLines {ps : List Pattern} {ls : List String}
    (hls : ps.map Pattern.written = ls.map String.toList)
    (hnames : ∀ p ∈ ps, ∀ name ∈ p.names, (b.get? name).isSome) (kind : TemplateKind) :
    (Template.ofBody kind (TemplateSet.ofLines ls)).render b =
      .ok (String.ofList (unlines (ps.map (Pattern.filled fun name => (b.get? name).getD "")))) := by
  have hbody : TemplateSet.ofLines ls = String.ofList (Pattern.ofLines ps).written := by
    rw [Pattern.written_ofLines, hls, ← toList_ofLines, String.ofList_toList]
  have hrender := renderBody_written (b := b) (Pattern.ofLines ps) fun name hname => by
    rw [Pattern.names_ofLines] at hname
    obtain ⟨p, hp, hname⟩ := List.mem_flatMap.mp hname
    exact hnames p hp name hname
  rw [Pattern.filled_ofLines, ← hbody] at hrender
  rw [DemoScaffold.Template.render, DemoScaffold.Template.ofBody, hrender]

end DemoScaffold.Template
