import DemoScaffold.Proofs.Template.Slots
import DemoScaffold.Proofs.Template.Surroundings
import DemoScaffold.Run
import Mathlib.Data.List.Basic

/-!
# Patterns

The template bodies in which literal texts and slots alternate. No rule for escapes, white space or lines
applies to such a body, so that it is rendered by putting texts in the places of the names
(`Pattern.writeWith_markup`).
-/

namespace DemoScaffold.Template

/-! ## Patterns -/

/-- A literal text in which no tag begins. -/
structure LiteralText where
  chars : List Char
  noBraces : ¬ ['\x7b', '\x7b'] <:+: chars

/-- Whether a text neither escapes nor extends the braces behind it. -/
def LiteralText.EndsApart (s : LiteralText) : Prop :=
  s.chars.getLast? ≠ some '\\' ∧ s.chars.getLast? ≠ some '\x7b'

/-- Literal texts with slots between them. -/
inductive Pattern where
  | last (s : LiteralText)
  | slot (s : LiteralText) (apart : s.EndsApart) (x : Slot) (rest : Pattern)

namespace Pattern

def written : Pattern → List Char
  | .last s => s.chars
  | .slot s _ x rest => s.chars ++ (x.written ++ rest.written)

/-- The names in the slots, from left to right. -/
def names : Pattern → List String
  | .last _ => []
  | .slot _ _ x rest => x.name :: rest.names

/-- The literal texts with texts for the names between them. -/
def filled (text : String → String) : Pattern → List Char
  | .last s => s.chars
  | .slot s _ x rest => s.chars ++ ((text x.name).toList ++ rest.filled text)

end Pattern

variable {c : Char} {s tail : List Char}

/-! ## Reading patterns -/

theorem piecesAfter_drop (skip : Nat) (s : List Char) :
    piecesAfter skip s = piecesAfter 0 (s.drop skip) := by
  induction s generalizing skip with
  | nil => rw [List.drop_nil, piecesAfter, piecesAfter]
  | cons c rest ih =>
      cases skip with
      | zero => rfl
      | succ skip => rw [piecesAfter, List.drop_succ_cons, ih]

theorem piecesAfter_slot (x : Slot) (rest : List Char) :
    piecesAfter 0 (x.written ++ rest) = (piecesAfter 0 rest).map (.tag x.tag :: ·) := by
  obtain ⟨more, hwritten⟩ := x.exists_written
  have hread := x.readBraces_written rest
  have hskip : ('\x7b' :: (more ++ rest)).drop (('\x7b' :: (more ++ rest)).length - rest.length) = rest := by
    have hlength : ('\x7b' :: (more ++ rest)).length - rest.length = ('\x7b' :: more).length := by
      rw [← List.cons_append, List.length_append, Nat.add_sub_cancel]
    rw [hlength, ← List.cons_append, List.drop_left]
  rw [hwritten, List.cons_append, List.cons_append] at hread ⊢
  rw [piecesAfter, if_pos (by simp), hread]
  dsimp only [bind, Option.bind]
  rw [piecesAfter_drop, hskip]
  cases piecesAfter 0 rest <;> rfl

/-- A literal text in front of pieces, as a piece only if it is not empty. -/
def addLiteral (s : List Char) (ps : List Piece) : List Piece :=
  if s = [] then ps else addText s ps

theorem addText_addText (s u : List Char) (ps : List Piece) :
    addText s (addText u ps) = addText (s ++ u) ps := by
  cases ps with
  | nil => rfl
  | cons piece rest =>
      cases piece with
      | text v => simp [addText]
      | tag t => rfl
      | verbatim space v => rfl

theorem addText_addLiteral (c : Char) (s : List Char) (ps : List Piece) :
    addText [c] (addLiteral s ps) = addLiteral (c :: s) ps := by
  cases s with
  | nil => rfl
  | cons d rest => exact addText_addText [c] (d :: rest) ps

/-- A text without two opening braces does not begin with them together with what follows it. -/
theorem not_braces_prefix (hbraces : ¬ ['\x7b', '\x7b'] <:+: c :: s)
    (hend : tail = [] ∨ (c :: s).getLast? ≠ some '\x7b') :
    ¬ ['\x7b', '\x7b'] <+: c :: s ++ tail := by
  intro hstart
  cases s with
  | nil =>
      rw [List.cons_append, List.cons_prefix_cons] at hstart
      rcases hend with rfl | hlast
      · simp at hstart
      · exact hlast (by simp [← hstart.1])
  | cons d more =>
      rw [List.cons_append, List.cons_append, List.cons_prefix_cons, List.cons_prefix_cons] at hstart
      refine hbraces (List.IsPrefix.isInfix ?_)
      rw [List.cons_prefix_cons, List.cons_prefix_cons]
      exact ⟨hstart.1, hstart.2.1, List.nil_prefix⟩

/-- Neither does what is behind the backslashes at its start. -/
theorem not_braces_prefix_behind (hbraces : ¬ ['\x7b', '\x7b'] <:+: s)
    (hend : tail = [] ∨ (s ≠ [] ∧ s.getLast? ≠ some '\\' ∧ s.getLast? ≠ some '\x7b')) :
    ¬ ['\x7b', '\x7b'] <+: (s ++ tail).dropWhile (· = '\\') := by
  induction s with
  | nil =>
      obtain rfl := hend.resolve_right fun h => h.1 rfl
      simp
  | cons c rest ih =>
      by_cases hslash : c = '\\'
      · rw [List.cons_append, List.dropWhile_cons_of_pos (by simpa using hslash)]
        refine ih (fun h => hbraces (h.trans (List.suffix_cons _ _).isInfix)) ?_
        rcases hend with htail | ⟨-, hlast⟩
        · exact .inl htail
        · have hrest : rest ≠ [] := by
            rintro rfl
            exact hlast.1 (by simp [hslash])
          rw [List.getLast?_cons_of_ne_nil hrest] at hlast
          exact .inr ⟨hrest, hlast⟩
      · rw [List.cons_append, List.dropWhile_cons_of_neg (by simpa using hslash), ← List.cons_append]
        exact not_braces_prefix hbraces (hend.imp_right fun h => h.2.2)

theorem escapeLength_eq_zero (h : ¬ ['\x7b', '\x7b'] <+: s.dropWhile (· = '\\')) :
    escapeLength s = 0 := by
  have hdrop : s.drop (s.takeWhile (· = '\\')).length = s.dropWhile (· = '\\') := by
    have h : (s.takeWhile (· = '\\') ++ s.dropWhile (· = '\\')).drop
        (s.takeWhile (· = '\\')).length = s.dropWhile (· = '\\') := List.drop_left
    rwa [List.takeWhile_append_dropWhile] at h
  have hstart : ['\x7b', '\x7b'].isPrefixOf (s.dropWhile (· = '\\')) = false :=
    Bool.eq_false_iff.mpr (mt List.isPrefixOf_iff_prefix.mp h)
  rw [escapeLength, hdrop, hstart]
  rfl

/-- A literal text is one piece as it is. -/
theorem piecesAfter_literal (hbraces : ¬ ['\x7b', '\x7b'] <:+: s)
    (hend : tail = [] ∨ (s.getLast? ≠ some '\\' ∧ s.getLast? ≠ some '\x7b')) :
    piecesAfter 0 (s ++ tail) = (piecesAfter 0 tail).map (addLiteral s) := by
  induction s with
  | nil =>
      rw [List.nil_append]
      cases piecesAfter 0 tail <;> rfl
  | cons c rest ih =>
      have hescape : escapeLength (c :: rest ++ tail) = 0 :=
        escapeLength_eq_zero (not_braces_prefix_behind hbraces
          (hend.imp_right fun h => ⟨List.cons_ne_nil _ _, h⟩))
      have hstart := not_braces_prefix hbraces (hend.imp_right And.right)
      have hrest : tail = [] ∨ (rest.getLast? ≠ some '\\' ∧ rest.getLast? ≠ some '\x7b') := by
        refine hend.imp_right fun h => ?_
        cases rest with
        | nil => simp
        | cons d more => exact h
      rw [List.cons_append] at hescape hstart ⊢
      rw [piecesAfter, if_neg (by simpa using hstart), hescape,
        ih (fun h => hbraces (h.trans (List.suffix_cons _ _).isInfix)) hrest]
      dsimp only
      rw [Option.map_map]
      exact congrArg (Option.map · _) (funext (addText_addLiteral c rest))

namespace Pattern

def pieces : Pattern → List Piece
  | .last s => addLiteral s.chars []
  | .slot s _ x rest => addLiteral s.chars (.tag x.tag :: rest.pieces)

theorem pieces_written (p : Pattern) : Template.pieces p.written = some p.pieces := by
  rw [Template.pieces]
  induction p with
  | last s =>
      have h := piecesAfter_literal s.noBraces (.inl (rfl : ([] : List Char) = []))
      rwa [List.append_nil] at h
  | slot s apart x rest ih =>
      rw [written, piecesAfter_literal s.noBraces (.inr apart), piecesAfter_slot, ih]
      rfl

end Pattern

/-! ## Laying out patterns -/

/-- A literal text in front of markup, if it is not empty. -/
def addLiteralMarkup (s : List Char) (m : Markup) : Markup :=
  if s = [] then m else .text s m

namespace Pattern

def markup : Pattern → Markup
  | .last s => addLiteralMarkup s.chars .done
  | .slot s _ x rest => addLiteralMarkup s.chars (.value (.marker x.marker) rest.markup)

/-- No white space of a pattern belongs to its tags. The margin never drops anything, whatever stands
behind it. -/
theorem nest_layout (p : Pattern) (behind : List Char) :
    Markup.nest (layout ⟨behind, false, false⟩ p.pieces) = some (p.markup, []) := by
  induction p generalizing behind with
  | last s =>
      rw [pieces, markup, addLiteral, addLiteralMarkup]
      split
      · rfl
      · rfl
  | slot s apart x rest ih =>
      have htag (behind : List Char) :
          Markup.nest (layout ⟨behind, false, false⟩ (.tag x.tag :: rest.pieces)) =
            some (.value (.marker x.marker) rest.markup, []) := by
        have hmargin : (Margin.mk behind false false).after x.tag rest.pieces = ⟨['}'], false, false⟩ :=
          rfl
        rw [layout, hmargin, Markup.nest, ih]
        rfl
      rw [pieces, markup, addLiteral, addLiteralMarkup]
      split
      · exact htag behind
      · have htext : addText s.chars (.tag x.tag :: rest.pieces) =
            .text s.chars :: .tag x.tag :: rest.pieces := rfl
        have hlayout : layout ⟨behind, false, false⟩ (.text s.chars :: .tag x.tag :: rest.pieces) =
            .text s.chars ::
              layout ⟨s.chars.reverse ++ behind, false, false⟩ (.tag x.tag :: rest.pieces) := rfl
        rw [htext, hlayout, Markup.nest, htag]
        rfl

theorem parse_written (p : Pattern) : Markup.parse p.written = some p.markup := by
  have hnest : Markup.nest (items p.pieces) = some (p.markup, []) := p.nest_layout []
  rw [Markup.parse, p.pieces_written, Option.bind_eq_bind, Option.bind_some, hnest]
  rfl

end Pattern

/-! ## Filling patterns -/

theorem indentLines_nil (s : List Char) : indentLines [] s = s := by
  induction s with
  | nil => rfl
  | cons c rest ih =>
      rw [indentLines, ih]
      split <;> rfl

/-- A site at which no partial is written, where texts are written as they are. -/
theorem put_of_no_blanks (sc : Scope) (block? : Option (List Char)) (p : Progress) (s : List Char) :
    (p.put ⟨sc, [], block?⟩ s).1 = s := by
  rw [Progress.put]
  cases s with
  | nil => rfl
  | cons c rest => simp [Pen.put, indentLines_nil]

theorem Slot.value?_marker (x : Slot) (b : Bindings) :
    x.marker.value? (.ofRoot (.ofBindings b)) = .ok ((b.get? x.name).map Value.text) := by
  have hvalue : x.marker.value? (.ofRoot (.ofBindings b)) =
      (Value.ofBindings b).follow [x.name] := rfl
  rw [hvalue, Value.follow, Value.ofBindings, Value.part?, lookup_fieldsOf]
  cases b.get? x.name <;> rfl

/-- What slots are written as: the bound text, or the fault that there is none. -/
theorem Slot.writeValue_marker (x : Slot) (b : Bindings) (p : Progress) :
    (writeValue ⟨.ofRoot (.ofBindings b), [], none⟩ (.marker x.marker) p).map Prod.fst =
      match b.get? x.name with
      | some text => .ok text.toList
      | none => .error (.unbound x.name) := by
  have hhelper : Helper.ofName? x.marker.written = none := x.isFree.2
  simp only [writeValue, pure_bind, hhelper, Argument.operand, x.value?_marker]
  cases b.get? x.name with
  | none => rfl
  | some text => exact congrArg Except.ok (put_of_no_blanks ..)

theorem followedBy_map {first : Except RenderFault Written}
    {next : Progress → Except RenderFault Written} {y : Except RenderFault (List Char)}
    (h : ∀ p, (next p).map Prod.fst = y) :
    (followedBy first next).map Prod.fst = first.map Prod.fst >>= fun s => y.map (s ++ ·) := by
  cases first with
  | error fault => rfl
  | ok w =>
      obtain ⟨s, q⟩ := w
      rw [followedBy, ← h q]
      dsimp only [bind, Except.bind]
      cases next q <;> rfl

variable {inserted : Markup → Site → Progress → Except RenderFault Written} {b : Bindings}

theorem writeWith_addLiteralMarkup {m : Markup} {y : Except RenderFault (List Char)}
    (h : ∀ p, (m.writeWith inserted ⟨.ofRoot (.ofBindings b), [], none⟩ p).map Prod.fst = y)
    (s : List Char) (p : Progress) :
    ((addLiteralMarkup s m).writeWith inserted ⟨.ofRoot (.ofBindings b), [], none⟩ p).map Prod.fst =
      y.map (s ++ ·) := by
  rw [addLiteralMarkup]
  split
  · rename_i hempty
    rw [h, hempty]
    cases y <;> rfl
  · rw [Markup.writeWith, followedBy_map h, Except.map, put_of_no_blanks]
    rfl

namespace Pattern

/-- What the bindings make of a pattern: its text if all names are bound, the fault of the first one from
the left that is not otherwise. -/
def outcome (b : Bindings) (p : Pattern) : Except RenderFault (List Char) :=
  match p.names.find? fun name => (b.get? name).isNone with
  | none => .ok (p.filled fun name => (b.get? name).getD "")
  | some name => .error (.unbound name)

theorem outcome_slot (b : Bindings) (s : LiteralText) (apart : s.EndsApart) (x : Slot) (rest : Pattern) :
    (slot s apart x rest).outcome b =
      (match b.get? x.name with
        | some text => .ok text.toList
        | none => .error (.unbound x.name)) >>= fun text =>
          ((rest.outcome b).map (text ++ ·)).map (s.chars ++ ·) := by
  rw [outcome, outcome, names, List.find?_cons]
  cases hname : b.get? x.name with
  | none => rfl
  | some text =>
      simp only [Option.isNone_some]
      cases rest.names.find? fun name => (b.get? name).isNone with
      | some name => rfl
      | none =>
          simp only [filled, hname]
          rfl

/-- The markup of a pattern writes what the bindings make of it. The induction is on the pattern; how
things stand before it does not matter. -/
theorem writeWith_markup (p : Pattern) (q : Progress) :
    (p.markup.writeWith inserted ⟨.ofRoot (.ofBindings b), [], none⟩ q).map Prod.fst = p.outcome b := by
  induction p generalizing q with
  | last s =>
      have hdone (q : Progress) :
          (Markup.done.writeWith inserted ⟨.ofRoot (.ofBindings b), [], none⟩ q).map Prod.fst =
            .ok [] := rfl
      rw [markup, writeWith_addLiteralMarkup hdone]
      exact congrArg Except.ok (List.append_nil _)
  | slot s apart x rest ih =>
      have hvalue (q : Progress) :
          ((Markup.value (.marker x.marker) rest.markup).writeWith inserted
            ⟨.ofRoot (.ofBindings b), [], none⟩ q).map Prod.fst =
          (match b.get? x.name with
            | some text => .ok text.toList
            | none => .error (.unbound x.name)) >>= fun text => (rest.outcome b).map (text ++ ·) := by
        rw [Markup.writeWith, followedBy_map ih, x.writeValue_marker]
      rw [markup, writeWith_addLiteralMarkup hvalue, outcome_slot]
      cases b.get? x.name <;> rfl

end Pattern

/-- Rendering puts texts in the places of names, and changes nothing else. If all names of a pattern are
bound, its template becomes the literal texts with the bound ones between them, whatever these say;
otherwise the first unbound name is missed. -/
theorem render_pattern (p : Pattern) (kind : TemplateKind) (suffix : String) (b : Bindings) :
    DemoScaffold.Template.render ⟨kind, String.ofList p.written, suffix⟩ b =
      match p.names.find? fun name => (b.get? name).isNone with
      | none => .ok (String.ofList (p.filled fun name => (b.get? name).getD ""))
      | some name => .error (.unboundPlaceholder kind name) := by
  have hwrite : (p.markup.write (maxInsertions + 1) ⟨.ofRoot (.ofBindings b), [], none⟩ .start).map
      Prod.fst = p.outcome b := p.writeWith_markup .start
  rw [DemoScaffold.Template.render, renderBody, String.toList_ofList, p.parse_written]
  dsimp only
  rw [Pattern.outcome] at hwrite
  generalize p.markup.write (maxInsertions + 1) ⟨.ofRoot (.ofBindings b), [], none⟩ .start = written
    at hwrite
  cases hfind : p.names.find? fun name => (b.get? name).isNone with
  | none =>
      rw [hfind] at hwrite
      cases written with
      | error fault => cases hwrite
      | ok w => exact congrArg (fun s => Except.ok (String.ofList s)) (Except.ok.inj hwrite)
  | some name =>
      rw [hfind] at hwrite
      cases written with
      | error fault =>
          cases hwrite
          rfl
      | ok w => cases hwrite

/-- A body in which braces, backslashes and a line of its own come close to tags. -/
def nearMisses : Pattern :=
  .slot ⟨"\x7d \\\\ \x7b \x7d\x7d ".toList, by decide +kernel⟩ ⟨by decide +kernel, by decide +kernel⟩
    ⟨.triple, "else_x", ⟨by decide, List.all_eq_true.mp (by decide +kernel)⟩, by decide +kernel,
      by decide +kernel⟩
    (.slot ⟨[], by decide⟩ ⟨by decide, by decide⟩
      ⟨.double, "y", ⟨by decide, List.all_eq_true.mp (by decide +kernel)⟩, by decide +kernel,
        by decide +kernel⟩
      (.last ⟨"\x7d\n\x7b".toList, by decide +kernel⟩))

theorem render_nearMisses :
    let b := Bindings.ofList [("else_x", "<\"&\n"), ("y", "\x7b\x7bz\x7d\x7d")]
    nearMisses.written = "\x7d \\\\ \x7b \x7d\x7d \x7b\x7b\x7belse_x\x7d\x7d\x7d\x7b\x7by\x7d\x7d\x7d\n\x7b".toList ∧
      DemoScaffold.Template.render ⟨.interface, String.ofList nearMisses.written, "txt"⟩ b =
        .ok "\x7d \\\\ \x7b \x7d\x7d <\"&\n\x7b\x7bz\x7d\x7d\x7d\n\x7b" := by
  refine ⟨by decide +kernel, ?_⟩
  rw [render_pattern nearMisses]
  decide +kernel

/-- A name that begins like the middle of a block is not read as a name in double braces, though it is
bound and no helper's. -/
theorem render_elsewhere :
    let t : DemoScaffold.Template := .ofBody .source "\x7b\x7belsewhere\x7d\x7d"
    let b := Bindings.ofList [("elsewhere", "x")]
    Helper.ofName? "elsewhere" = none ∧ b.get? "elsewhere" = some "x" ∧
      t.render b = .error (.templateRefused .source .malformed) ∧ t.render b ≠ .ok "x" := by
  have h : DemoScaffold.Template.render (.ofBody .source "\x7b\x7belsewhere\x7d\x7d")
      (Bindings.ofList [("elsewhere", "x")]) = .error (.templateRefused .source .malformed) := by
    decide +kernel
  exact ⟨by decide, by decide +kernel, h, by simp [h]⟩

end DemoScaffold.Template
