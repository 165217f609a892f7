import DemoScaffold.Proofs.Template.Surroundings
import DemoScaffold.Proofs.Template.Written
import DemoScaffold.Run
import Mathlib.Data.List.Basic

/-!
# Missing bindings

A template that uses a name in values only, and not in what blocks and helpers are given, is never
rendered to another text when the binding of that name is missing. It is rendered as with the binding, or
it fails at a marker that refers to the name (`Markup.writeWith_erase`).
-/

namespace DemoScaffold.Template

/-! ## Results -/

/-- Two results that are the same, or of which the second is the fault of one of the given markers. -/
def SameOrUnbound {α : Type} (marks : List Marker) (x y : Except RenderFault α) : Prop :=
  y = x ∨ ∃ m ∈ marks, y = .error (.unbound m.written)

namespace SameOrUnbound

variable {α β : Type} {marks marks' : List Marker} {x y : Except RenderFault α}

theorem refl (marks : List Marker) (x : Except RenderFault α) : SameOrUnbound marks x x :=
  .inl rfl

theorem mono (h : SameOrUnbound marks x y) (hsub : marks ⊆ marks') : SameOrUnbound marks' x y := by
  rcases h with h | ⟨m, hm, h⟩
  · exact .inl h
  · exact .inr ⟨m, hsub hm, h⟩

theorem bind {f g : α → Except RenderFault β} (h : SameOrUnbound marks x y)
    (hf : ∀ a, SameOrUnbound marks (f a) (g a)) : SameOrUnbound marks (x >>= f) (y >>= g) := by
  rcases h with rfl | ⟨m, hm, rfl⟩
  · cases y with
    | error fault => exact .inl rfl
    | ok a => exact hf a
  · exact .inr ⟨m, hm, rfl⟩

end SameOrUnbound

/-! ## What is spared -/

mutual
/-- Whether no marker in an argument refers to a name or stands for all bindings. -/
def Argument.spares (name : String) (sr : Surroundings) : Argument → Bool
  | .marker m => !m.isWhole sr && !m.refersTo name sr
  | .literal _ => true
  | .call _ positional named => areSpared name sr positional && areSparedNamed name sr named

/-- Whether all arguments given by position spare a name. -/
def areSpared (name : String) (sr : Surroundings) : List Argument → Bool
  | [] => true
  | a :: rest => a.spares name sr && areSpared name sr rest

/-- Whether all arguments given by name spare a name. -/
def areSparedNamed (name : String) (sr : Surroundings) : List (String × Argument) → Bool
  | [] => true
  | (_, a) :: rest => a.spares name sr && areSparedNamed name sr rest
end

def Arguments.spares (name : String) (sr : Surroundings) (args : Arguments) : Bool :=
  areSpared name sr args.positional && areSparedNamed name sr args.named

/-- The surroundings of what stands in a block. -/
def Head.within (head : Head) (sr : Surroundings) : Surroundings :=
  match Helper.ofName? head.name with
  | some .within => sr.enter (if head.names.length = 1 then head.names else [])
  | some .forEach => sr.enter (if head.names.length ≤ 2 then head.names else [])
  | _ => sr

/-- Whether markup has no partials, and uses a name in values only: nothing that a block or a helper is
given refers to it or is all bindings together. -/
def Markup.spares (name : String) : Surroundings → Markup → Bool
  | _, .done => true
  | sr, .text _ rest => rest.spares name sr
  | sr, .value (.marker _) rest => rest.spares name sr
  | sr, .value a rest => a.spares name sr && rest.spares name sr
  | sr, .call _ arguments rest => arguments.spares name sr && rest.spares name sr
  | sr, .block head _ body _ inverse rest =>
    head.arguments.spares name sr && body.spares name (head.within sr) && inverse.spares name sr &&
      rest.spares name sr
  | _, .directive .. => false
  | _, .insert .. => false

/-- The values of markup that refer to a name. -/
def Markup.mentions (name : String) : Surroundings → Markup → List Marker
  | sr, .value (.marker m) rest =>
    if m.refersTo name sr then m :: rest.mentions name sr else rest.mentions name sr
  | sr, .block head _ body _ inverse rest =>
    body.mentions name (head.within sr) ++ inverse.mentions name sr ++ rest.mentions name sr
  | sr, .text _ rest => rest.mentions name sr
  | sr, .value _ rest => rest.mentions name sr
  | sr, .call _ _ rest => rest.mentions name sr
  | _, .done => []
  | _, .directive .. => []
  | _, .insert .. => []

/-! ## What is given -/

variable {name : String} {sr : Surroundings} {inside : List Frame} {b : Bindings}

mutual
theorem Argument.operand_erase (hfits : sr.Fits inside) :
    (a : Argument) → a.spares name sr = true →
      a.operand (.around (.ofBindings (b.erase name)) inside) =
        a.operand (.around (.ofBindings b) inside)
  | .marker m, ha => by
      simp only [Argument.spares, Bool.and_eq_true, Bool.not_eq_true'] at ha
      rw [Argument.operand, Argument.operand]
      rcases Marker.value?_erase hfits ha.1 with hsame | ⟨hrefers, -⟩
      · rw [hsame]
      · rw [ha.2] at hrefers
        cases hrefers
  | .literal v, _ => by rw [Argument.operand, Argument.operand]
  | .call helper positional named, ha => by
      simp only [Argument.spares, Bool.and_eq_true] at ha
      rw [Argument.operand, Argument.operand, operandsOf_erase hfits positional ha.1,
        namedOperandsOf_erase hfits named ha.2]

theorem operandsOf_erase (hfits : sr.Fits inside) :
    (as : List Argument) → areSpared name sr as = true →
      operandsOf (.around (.ofBindings (b.erase name)) inside) as =
        operandsOf (.around (.ofBindings b) inside) as
  | [], _ => by rw [operandsOf, operandsOf]
  | a :: rest, has => by
      simp only [areSpared, Bool.and_eq_true] at has
      rw [operandsOf, operandsOf, Argument.operand_erase hfits a has.1,
        operandsOf_erase hfits rest has.2]

theorem namedOperandsOf_erase (hfits : sr.Fits inside) :
    (as : List (String × Argument)) → areSparedNamed name sr as = true →
      namedOperandsOf (.around (.ofBindings (b.erase name)) inside) as =
        namedOperandsOf (.around (.ofBindings b) inside) as
  | [], _ => by rw [namedOperandsOf, namedOperandsOf]
  | (key, a) :: rest, has => by
      simp only [areSparedNamed, Bool.and_eq_true] at has
      rw [namedOperandsOf, namedOperandsOf, Argument.operand_erase hfits a has.1,
        namedOperandsOf_erase hfits rest has.2]
end

theorem Arguments.operands_erase {args : Arguments} (hfits : sr.Fits inside)
    (hargs : args.spares name sr = true) :
    args.operands (.around (.ofBindings (b.erase name)) inside) =
      args.operands (.around (.ofBindings b) inside) := by
  simp only [Arguments.spares, Bool.and_eq_true] at hargs
  rw [Arguments.operands, Arguments.operands, operandsOf_erase hfits args.positional hargs.1,
    namedOperandsOf_erase hfits args.named hargs.2]

/-! ## Values -/

variable {blanks : List Char} {block? : Option (List Char)}

theorem writeValue_congr {a : Argument} {sc sc' : Scope} (h : a.operand sc = a.operand sc')
    (p : Progress) : writeValue ⟨sc, blanks, block?⟩ a p = writeValue ⟨sc', blanks, block?⟩ a p := by
  cases a with
  | marker m =>
      simp only [writeValue, h]
      rfl
  | literal v =>
      simp only [writeValue, Argument.targetName, h]
      rfl
  | call helper positional named =>
      simp only [writeValue, Argument.targetName, h]
      rfl

theorem writeCall_erase {helper : String} {args : Arguments} (hfits : sr.Fits inside)
    (hargs : args.spares name sr = true) (p : Progress) :
    writeCall ⟨.around (.ofBindings (b.erase name)) inside, blanks, block?⟩ helper args p =
      writeCall ⟨.around (.ofBindings b) inside, blanks, block?⟩ helper args p := by
  rw [writeCall, writeCall, Arguments.operands_erase hfits hargs]
  rfl

/-- The value of a marker is written the same without a binding, or it is missed. -/
theorem writeValue_erase (hfits : sr.Fits inside) (m : Marker) (p : Progress) :
    writeValue ⟨.around (.ofBindings (b.erase name)) inside, blanks, block?⟩ (.marker m) p =
        writeValue ⟨.around (.ofBindings b) inside, blanks, block?⟩ (.marker m) p ∨
      m.refersTo name sr = true ∧
        writeValue ⟨.around (.ofBindings (b.erase name)) inside, blanks, block?⟩ (.marker m) p =
          .error (.unbound m.written) := by
  cases hhelper : Helper.ofName? m.written with
  | some helper =>
      left
      simp only [writeValue, pure_bind, hhelper]
      rfl
  | none =>
      simp only [writeValue, pure_bind, hhelper, Argument.operand]
      cases hwhole : m.isWhole sr with
      | true =>
          left
          rw [Marker.value?_of_isWhole hfits hwhole, Marker.value?_of_isWhole hfits hwhole]
          rfl
      | false =>
          rcases Marker.value?_erase hfits hwhole with hsame | ⟨hrefers, hnone⟩
          · left
            rw [hsame]
            rfl
          · right
            rw [hnone]
            exact ⟨hrefers, rfl⟩

/-! ## Blocks -/

/-- Whether something writes the same in given surroundings without a binding, or misses it at one of the
given markers. -/
def WritesSameOrUnbound (marks : List Marker) (b : Bindings) (name : String) (sr : Surroundings)
    (write : Scope → Progress → Except RenderFault Written) : Prop :=
  ∀ inside, sr.Fits inside → ∀ p, SameOrUnbound marks (write (.around (.ofBindings b) inside) p)
    (write (.around (.ofBindings (b.erase name)) inside) p)

variable {marks : List Marker}

theorem followedBy_sameOrUnbound {first first' : Except RenderFault Written}
    {next next' : Progress → Except RenderFault Written} (h : SameOrUnbound marks first first')
    (hnext : ∀ p, SameOrUnbound marks (next p) (next' p)) :
    SameOrUnbound marks (followedBy first next) (followedBy first' next') :=
  h.bind fun w => (hnext w.2).bind fun _ => .refl ..

theorem writeInside_sameOrUnbound {write write' : Progress → Except RenderFault Written}
    (h : ∀ p, SameOrUnbound marks (write p) (write' p)) (p : Progress) :
    SameOrUnbound marks (p.writeInside write) (p.writeInside write') :=
  (h p).bind fun _ => .refl ..

theorem writeTag_sameOrUnbound {write write' : Progress → Except RenderFault Written}
    (h : ∀ p, SameOrUnbound marks (write p) (write' p)) (owesBlanks : Bool) (p : Progress) :
    SameOrUnbound marks (p.writeTag owesBlanks write) (p.writeTag owesBlanks write') :=
  (h _).bind fun _ => .refl ..

theorem lookup_roundNames {names : List String} {name : String}
    (h : name ∈ if names.length ≤ 2 then names else []) (key value : Value) :
    ((roundNames names key value).lookup name).isSome := by
  match names, h with
  | [first], h =>
      have hname : name = first := by simpa using h
      simp [roundNames, hname]
  | [first, second], h =>
      have hname : name = first ∨ name = second := by simpa using h
      by_cases hsecond : name = second
      · simp [roundNames, hsecond]
      · rw [hname.resolve_right hsecond, roundNames, List.lookup_cons]
        split
        · rfl
        · simp
  | _ :: _ :: _ :: _, h => simp at h

theorem concatRounds_sameOrUnbound {write : Scope → Progress → Except RenderFault Written}
    {names : List String} (hfits : sr.Fits inside)
    (hwrite : WritesSameOrUnbound marks b name
      (sr.enter (if names.length ≤ 2 then names else [])) write)
    (parts : List (Option String × Value)) (number : Nat) (p : Progress) :
    SameOrUnbound marks
      (concatRounds write (roundsFrom (.around (.ofBindings b) inside) names number parts) p)
      (concatRounds write
        (roundsFrom (.around (.ofBindings (b.erase name)) inside) names number parts) p) := by
  induction parts generalizing number p with
  | nil => exact .refl ..
  | cons part rest ih =>
      obtain ⟨key?, v⟩ := part
      refine followedBy_sameOrUnbound ?_ fun p => ih (number + 1) p
      cases key? with
      | some key =>
          simp only [roundScope, enter_around]
          exact hwrite _ (hfits.enter fun _ h => lookup_roundNames h _ _) p
      | none =>
          simp only [roundScope, enter_around]
          exact hwrite _ (hfits.enter fun _ h => lookup_roundNames h _ _) p

/-- Inside the block of a value both runs have the same innermost frame. -/
theorem writeInside_enterWith_sameOrUnbound {body : Scope → Progress → Except RenderFault Written}
    {names : List String} {value : Value} {named : List (String × Value)} (hfits : sr.Fits inside)
    (hnames : ∀ name ∈ names, (named.lookup name).isSome)
    (hbody : WritesSameOrUnbound marks b name (sr.enter names) body) (p : Progress) :
    SameOrUnbound marks
      (p.writeInside (body ((Scope.around (.ofBindings b) inside).enterWith value named)))
      (p.writeInside
        (body ((Scope.around (.ofBindings (b.erase name)) inside).enterWith value named))) := by
  refine writeInside_sameOrUnbound (fun p => ?_) p
  rw [Scope.enterWith, Scope.enterWith, enter_around, enter_around,
    inner_given_around (.ofBindings b) (.ofBindings (b.erase name))]
  exact hbody _ (hfits.enter hnames) p

theorem writeBlock_sameOrUnbound {head : Head} {hasInverse : Bool}
    {body inverse : Scope → Progress → Except RenderFault Written} (hfits : sr.Fits inside)
    (hargs : head.arguments.spares name sr = true)
    (hbody : WritesSameOrUnbound marks b name (head.within sr) body)
    (hinverse : WritesSameOrUnbound marks b name sr inverse) (p : Progress) :
    SameOrUnbound marks
      (writeBlock ⟨.around (.ofBindings b) inside, blanks, block?⟩ head hasInverse body inverse p)
      (writeBlock ⟨.around (.ofBindings (b.erase name)) inside, blanks, block?⟩ head hasInverse body
        inverse p) := by
  -- Both runs are given the same, so they take the same branch, and differ in its parts at most.
  rw [writeBlock, writeBlock, Arguments.operands_erase hfits hargs]
  refine .bind (.refl ..) fun ops => ?_
  rw [Head.within] at hbody
  cases hhelper : Helper.ofName? head.name with
  | none => exact .refl ..
  | some helper =>
      rw [hhelper] at hbody
      cases helper with
      | conditional expected =>
          refine .bind (.refl ..) fun o => ?_
          split
          · exact hbody inside hfits p
          · exact hinverse inside hfits p
      | within =>
          refine .bind (.refl ..) fun o => ?_
          split
          · refine writeInside_enterWith_sameOrUnbound hfits (fun n hn => ?_) hbody p
            match head.names, hn with
            | [first], hn =>
                have hfirst : n = first := by simpa using hn
                simp [hfirst]
            | _ :: _ :: _, hn => simp at hn
          · split
            · exact hinverse inside hfits p
            · exact .refl ..
      | forEach =>
          refine .bind (.refl ..) fun o => ?_
          split
          · split
            · exact hinverse inside hfits p
            · exact writeInside_sameOrUnbound
                (fun p => concatRounds_sameOrUnbound hfits hbody _ 0 p) p
          · split
            · exact hinverse inside hfits p
            · exact .refl ..
      | verbatim => exact hbody inside hfits p
      | test t =>
          refine .bind (.refl ..) fun answer => ?_
          split
          · exact hbody inside hfits p
          · exact hinverse inside hfits p
      | log => exact .refl ..
      | lookup => exact .refl ..
      | length => exact .refl ..

/-! ## Markup -/

/-- Markup that spares a name is written the same without its binding, or fails at a marker that refers
to the name. -/
theorem Markup.writeWith_erase
    (inserted : Markup → Site → Progress → Except RenderFault Written) (m : Markup)
    (hm : m.spares name sr = true) :
    WritesSameOrUnbound (m.mentions name sr) b name sr
      (fun scope p => m.writeWith inserted ⟨scope, blanks, block?⟩ p) := by
  induction m generalizing sr with
  | done => exact fun _ _ _ => .refl ..
  | text s rest ih =>
      intro inside hfits p
      exact followedBy_sameOrUnbound (.refl ..) (ih hm inside hfits)
  | value a rest ih =>
      cases a with
      | marker m =>
          intro inside hfits p
          have hsub : rest.mentions name sr ⊆ Markup.mentions name sr (.value (.marker m) rest) := by
            rw [Markup.mentions]
            split
            · exact List.subset_cons_self _ _
            · exact List.Subset.refl _
          refine followedBy_sameOrUnbound ?_ fun p => (ih hm inside hfits p).mono hsub
          rcases writeValue_erase hfits m p with hsame | ⟨hrefers, hfault⟩
          · exact .inl hsame
          · refine .inr ⟨m, ?_, hfault⟩
            rw [Markup.mentions, if_pos hrefers]
            exact List.mem_cons_self
      | literal v =>
          intro inside hfits p
          simp only [Markup.spares, Bool.and_eq_true] at hm
          refine followedBy_sameOrUnbound (.inl ?_) (ih hm.2 inside hfits)
          exact writeValue_congr (Argument.operand_erase hfits _ hm.1) p
      | call helper positional named =>
          intro inside hfits p
          simp only [Markup.spares, Bool.and_eq_true] at hm
          refine followedBy_sameOrUnbound (.inl ?_) (ih hm.2 inside hfits)
          exact writeValue_congr (Argument.operand_erase hfits _ hm.1) p
  | call helper arguments rest ih =>
      intro inside hfits p
      simp only [Markup.spares, Bool.and_eq_true] at hm
      refine followedBy_sameOrUnbound (.inl ?_) (ih hm.2 inside hfits)
      exact writeCall_erase hfits hm.1 p
  | block head alone body hasInverse inverse rest ihbody ihinverse ih =>
      intro inside hfits p
      simp only [Markup.spares, Bool.and_eq_true] at hm
      obtain ⟨⟨⟨hargs, hbody⟩, hinverse⟩, hrest⟩ := hm
      refine followedBy_sameOrUnbound (writeTag_sameOrUnbound (fun p => ?_) _ p) fun p =>
        (ih hrest inside hfits p).mono (List.subset_append_right _ _)
      refine writeBlock_sameOrUnbound hfits hargs (fun inside hfits p => ?_)
        (fun inside hfits p => ?_) p
      · exact (ihbody hbody inside hfits p).mono
          (List.subset_append_of_subset_left _ (List.subset_append_left _ _))
      · exact (ihinverse hinverse inside hfits p).mono
          (List.subset_append_of_subset_left _ (List.subset_append_right _ _))
  | directive head hasBody body rest => cases hm
  | insert target arguments indent hasBody body rest => cases hm

theorem Markup.mentions_subset_markers (name : String) (sr : Surroundings) (m : Markup) :
    m.mentions name sr ⊆ m.markers := by
  induction m generalizing sr with
  | done => exact List.Subset.refl _
  | text s rest ih => exact ih sr
  | value a rest ih =>
      cases a with
      | marker m =>
          rw [mentions, markers]
          split
          · exact List.cons_subset_cons _ (ih sr)
          · exact List.subset_append_of_subset_right _ (ih sr)
      | literal v => exact ih sr
      | call helper positional named => exact ih sr
  | call helper arguments rest ih => exact ih sr
  | block head alone body hasInverse inverse rest ihbody ihinverse ih =>
      rw [mentions, markers]
      refine List.append_subset_of_subset_of_subset (List.append_subset_of_subset_of_subset ?_ ?_) ?_
      · exact List.subset_append_of_subset_left _ (List.subset_append_of_subset_left _ (ihbody _))
      · exact List.subset_append_of_subset_left _ (List.subset_append_of_subset_right _ (ihinverse _))
      · exact List.subset_append_of_subset_right _ (ih _)
  | directive head hasBody body rest ihbody ih => exact List.nil_subset _
  | insert target arguments indent hasBody body rest ihbody ih => exact List.nil_subset _

/-! ## Templates -/

/-- Whether a template uses a name in values only. -/
def usesInValuesOnly (t : DemoScaffold.Template) (name : String) : Bool :=
  (Markup.parse t.body.toList).all (·.spares name .outermost)

/-- The values in a template that refer to a name. -/
def mentions (t : DemoScaffold.Template) (name : String) : List Marker :=
  ((Markup.parse t.body.toList).map (·.mentions name .outermost)).getD []

theorem renderBody_erase {t : DemoScaffold.Template} {b : Bindings} {name : String}
    (h : t.usesInValuesOnly name = true) :
    SameOrUnbound (t.mentions name) (renderBody t.body b) (renderBody t.body (b.erase name)) := by
  rw [usesInValuesOnly] at h
  rw [mentions, renderBody, renderBody]
  cases hparse : Markup.parse t.body.toList with
  | none => exact .refl ..
  | some m =>
      rw [hparse] at h
      have hspares : m.spares name .outermost = true := by simpa using h
      refine .bind ?_ fun _ => .refl ..
      exact Markup.writeWith_erase _ m hspares [] Surroundings.outermost_fits .start

theorem written_of_mem_mentions {t : DemoScaffold.Template} {name : String} {m : Marker}
    (h : m ∈ t.mentions name) : m.written.toList <:+: t.body.toList := by
  rw [mentions] at h
  cases hparse : Markup.parse t.body.toList with
  | none =>
      rw [hparse] at h
      cases h
  | some tree =>
      rw [hparse] at h
      exact Markup.written_of_parse hparse (Markup.mentions_subset_markers _ _ _ h)

/-- Rendering is never silent about a missing binding. A template that uses a name in values only is
rendered without the binding as it is with it, or it fails at a marker of its body that refers to the
name. In particular it never gets another text. -/
theorem render_without_binding (t : DemoScaffold.Template) (b : Bindings) (name : String)
    (h : t.usesInValuesOnly name = true) :
    (t.render (b.erase name) = t.render b ∨
      ∃ m ∈ t.mentions name, m.written.toList <:+: t.body.toList ∧
        t.render (b.erase name) = .error (.unboundPlaceholder t.kind m.written)) ∧
    ∀ s, t.render (b.erase name) = .ok s → t.render b = .ok s := by
  rcases renderBody_erase (b := b) h with hsame | ⟨m, hm, hfault⟩
  · have hrender : t.render (b.erase name) = t.render b := by
      rw [DemoScaffold.Template.render, DemoScaffold.Template.render, hsame]
    exact ⟨.inl hrender, fun s hs => hrender ▸ hs⟩
  · have hrender : t.render (b.erase name) = .error (.unboundPlaceholder t.kind m.written) := by
      rw [DemoScaffold.Template.render, hfault]
    refine ⟨.inr ⟨m, hm, written_of_mem_mentions hm, hrender⟩, fun s hs => ?_⟩
    rw [hrender] at hs
    cases hs

/-- A marker that leaves the block around it to reach the binding. -/
def nestedTemplate : DemoScaffold.Template :=
  .ofBody .source
    "\x7b\x7b#with a as |v|\x7d\x7d\x7b\x7bv\x7d\x7d: \x7b\x7b~ ../x\x7d\x7d\x7b\x7belse\x7d\x7d\x7b\x7b&x\x7d\x7d\x7b\x7b/with\x7d\x7d"

/-- The marker is missed in the part of the block that is written. -/
theorem nested_without_binding :
    let b := Bindings.ofList [("a", "A"), ("x", "X")]
    nestedTemplate.render b = .ok "A:X" ∧
      nestedTemplate.render (b.erase "x") = .error (.unboundPlaceholder .source "../x") ∧
      ∀ s, nestedTemplate.render (b.erase "x") = .ok s → nestedTemplate.render b = .ok s := by
  refine ⟨by decide +kernel, by decide +kernel, ?_⟩
  exact (render_without_binding nestedTemplate _ "x" (by decide +kernel)).2

end DemoScaffold.Template
