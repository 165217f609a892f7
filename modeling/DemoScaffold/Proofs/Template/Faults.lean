import DemoScaffold.Proofs.Template.Alike
import DemoScaffold.Template.Render

/-!
# Faults of plain templates

A template is plain if it has no partials and no helper that looks at what a text says. Whether it can
be rendered, and how it fails, is the same in alike scopes (`Markup.writeWith_alike`): what has been
written before, and with which pen, makes no difference to it.
-/

namespace DemoScaffold.Template

/-! ## What is given -/

/-- Operands of one name, whose values are alike or both missing. -/
structure Operand.Alike (o o' : Operand) : Prop where
  name : o.name = o'.name
  value? : Option.Rel Value.Alike o.value? o'.value?

/-- The same number of operands, alike one by one. -/
structure Operands.Alike (ops ops' : Operands) : Prop where
  positional : List.Forall₂ Operand.Alike ops.positional ops'.positional
  named : Fieldwise Operand.Alike ops.named ops'.named

theorem Operand.Alike.value {o o' : Operand} (h : o.Alike o') : o.value.Alike o'.value := by
  obtain ⟨name, value?⟩ := o
  obtain ⟨name', value?'⟩ := o'
  obtain ⟨-, hvalue⟩ := h
  cases hvalue with
  | none => exact .null
  | some h => exact h

theorem Operand.Alike.unbound {o o' : Operand} (h : o.Alike o') : o.unbound = o'.unbound := by
  rw [Operand.unbound, Operand.unbound, h.name]

namespace Operands.Alike

variable {ops ops' : Operands}

theorem empty : Operands.empty.Alike Operands.empty :=
  ⟨.nil, .nil⟩

theorem need (h : ops.Alike ops') (place : Nat) :
    Together Operand.Alike (ops.need place) (ops'.need place) := by
  rw [Operands.need, Operands.need]
  have hplace := forall₂_getElem? h.positional place
  generalize ops.positional[place]? = x at hplace
  generalize ops'.positional[place]? = y at hplace
  cases hplace with
  | none => exact .error _
  | some ho => exact .ok ho

theorem needValue (h : ops.Alike ops') (place : Nat) :
    Together Value.Alike (ops.needValue place) (ops'.needValue place) := by
  rw [Operands.needValue, Operands.needValue]
  have hplace := forall₂_getElem? h.positional place
  generalize ops.positional[place]? = x at hplace
  generalize ops'.positional[place]? = y at hplace
  cases hplace with
  | none => exact .error _
  | @some o o' ho =>
      obtain ⟨name, value?⟩ := o
      obtain ⟨name', value?'⟩ := o'
      obtain ⟨-, hvalue⟩ := ho
      cases hvalue with
      | none => exact .error _
      | some hvw => exact .ok hvw

theorem zeroCounts (h : ops.Alike ops') : ops.zeroCounts = ops'.zeroCounts := by
  rw [Operands.zeroCounts, Operands.zeroCounts, Operands.named?, Operands.named?]
  have hlookup := h.named.lookup "includeZero"
  generalize ops.named.lookup "includeZero" = x at hlookup
  generalize ops'.named.lookup "includeZero" = y at hlookup
  cases hlookup with
  | none => rfl
  | some ho =>
      have hvalue := ho.value
      simp only [Option.map_some]
      generalize Operand.value _ = v at hvalue
      generalize Operand.value _ = w at hvalue
      cases hvalue <;> rfl

end Operands.Alike

/-! ## Plain helpers -/

/-- The questions that ask only whether values count as true. -/
def Test.isPlain : Test → Bool
  | .all | .any | .none => true
  | _ => false

/-- The helpers that do not look at what a text says. -/
def Helper.isPlain : Helper → Bool
  | .conditional _ | .forEach | .within | .verbatim => true
  | .test t => t.isPlain
  | .log | .lookup | .length => false

/-- The names that stand for a plain helper or for none. -/
def isPlainName (name : String) : Bool :=
  (Helper.ofName? name).all Helper.isPlain

theorem isTrue_all {os os' : List Operand} (h : List.Forall₂ Operand.Alike os os') :
    (os.all fun o => o.value.isTrue false) = os'.all fun o => o.value.isTrue false := by
  induction h with
  | nil => rfl
  | cons ho rest ih => rw [List.all_cons, List.all_cons, ho.value.isTrue, ih]

theorem isTrue_any {os os' : List Operand} (h : List.Forall₂ Operand.Alike os os') :
    (os.any fun o => o.value.isTrue false) = os'.any fun o => o.value.isTrue false := by
  induction h with
  | nil => rfl
  | cons ho rest ih => rw [List.any_cons, List.any_cons, ho.value.isTrue, ih]

variable {ops ops' : Operands} {sc sc' : Scope}

theorem Test.holds_alike {t : Test} (ht : t.isPlain = true) (h : ops.Alike ops') :
    Together Eq (t.holds ops) (t.holds ops') := by
  cases t with
  | all => exact .ok (isTrue_all h.positional)
  | any => exact .ok (isTrue_any h.positional)
  | none =>
      refine (h.needValue 0).bind fun v w hvw => ?_
      exact .ok (by rw [hvw.isTrue])
  | _ => cases ht

theorem Helper.result_alike {helper : Helper} (hhelper : helper.isPlain = true)
    (h : ops.Alike ops') : Together Value.Alike (helper.result ops) (helper.result ops') := by
  cases helper with
  | conditional expected => exact (h.need 0).bind fun _ _ _ => .ok (.refl _)
  | forEach => exact (h.need 0).bind fun _ _ _ => .ok (.refl _)
  | within =>
      refine (h.need 0).bind fun o o' ho => ?_
      rw [ho.value.isTrue, ho.unbound]
      split
      · exact .ok (.refl _)
      · exact .error _
  | verbatim => exact .ok (.refl _)
  | test t =>
      refine (Test.holds_alike hhelper h).bind fun b b' hb => ?_
      rw [hb]
      exact .ok (.refl _)
  | log => cases hhelper
  | lookup => cases hhelper
  | length => cases hhelper

/-! ## Plain arguments -/

mutual
/-- Whether an argument uses plain helpers only. -/
def Argument.isPlain : Argument → Bool
  | .marker _ | .literal _ => true
  | .call name positional named => isPlainName name && arePlain positional && arePlainNamed named

/-- Whether all arguments given by position are plain. -/
def arePlain : List Argument → Bool
  | [] => true
  | a :: rest => a.isPlain && arePlain rest

/-- Whether all arguments given by name are plain. -/
def arePlainNamed : List (String × Argument) → Bool
  | [] => true
  | (_, a) :: rest => a.isPlain && arePlainNamed rest
end

theorem applyNamed_alike {name : String} (hname : isPlainName name = true) (h : ops.Alike ops') :
    Together Value.Alike (applyNamed name ops) (applyNamed name ops') := by
  rw [isPlainName] at hname
  rw [applyNamed, applyNamed]
  cases hhelper : Helper.ofName? name with
  | none => exact .error _
  | some helper =>
      rw [hhelper] at hname
      exact Helper.result_alike (by simpa using hname) h

mutual
theorem Argument.operand_alike (h : sc.Alike sc') :
    (a : Argument) → a.isPlain = true → Together Operand.Alike (a.operand sc) (a.operand sc')
  | .marker m, _ => by
      rw [Argument.operand, Argument.operand]
      exact (h.value? m).bind fun x y hxy => .ok ⟨rfl, hxy⟩
  | .literal v, _ => by
      rw [Argument.operand, Argument.operand]
      exact .ok ⟨rfl, .some (.refl v)⟩
  | .call name positional named, ha => by
      simp only [Argument.isPlain, Bool.and_eq_true] at ha
      rw [Argument.operand, Argument.operand]
      refine (operandsOf_alike h positional ha.1.2).bind fun os os' hos => ?_
      refine (namedOperandsOf_alike h named ha.2).bind fun ns ns' hns => ?_
      exact (applyNamed_alike ha.1.1 ⟨hos, hns⟩).bind fun v w hvw => .ok ⟨rfl, .some hvw⟩

theorem operandsOf_alike (h : sc.Alike sc') :
    (as : List Argument) → arePlain as = true →
      Together (List.Forall₂ Operand.Alike) (operandsOf sc as) (operandsOf sc' as)
  | [], _ => .ok .nil
  | a :: rest, has => by
      simp only [arePlain, Bool.and_eq_true] at has
      rw [operandsOf, operandsOf]
      refine (Argument.operand_alike h a has.1).bind fun o o' ho => ?_
      exact (operandsOf_alike h rest has.2).bind fun os os' hos => .ok (.cons ho hos)

theorem namedOperandsOf_alike (h : sc.Alike sc') :
    (as : List (String × Argument)) → arePlainNamed as = true →
      Together (Fieldwise Operand.Alike) (namedOperandsOf sc as) (namedOperandsOf sc' as)
  | [], _ => .ok .nil
  | (name, a) :: rest, has => by
      simp only [arePlainNamed, Bool.and_eq_true] at has
      rw [namedOperandsOf, namedOperandsOf]
      refine (Argument.operand_alike h a has.1).bind fun o o' ho => ?_
      exact (namedOperandsOf_alike h rest has.2).bind fun os os' hos => .ok (.cons ho hos)
end

/-- Whether all arguments of a helper are plain. -/
def Arguments.isPlain (args : Arguments) : Bool :=
  arePlain args.positional && arePlainNamed args.named

theorem Arguments.operands_alike {args : Arguments} (hargs : args.isPlain = true)
    (h : sc.Alike sc') : Together Operands.Alike (args.operands sc) (args.operands sc') := by
  simp only [Arguments.isPlain, Bool.and_eq_true] at hargs
  refine (operandsOf_alike h args.positional hargs.1).bind fun os os' hos => ?_
  exact (namedOperandsOf_alike h args.named hargs.2).bind fun ns ns' hns => .ok ⟨hos, hns⟩

/-! ## Writing -/

/-- Both fail with the same fault, or neither fails. -/
abbrev FailsAlike {α β ε : Type} (x : Except ε α) (y : Except ε β) : Prop :=
  Together (fun _ _ => True) x y

variable {site site' : Site} {p p' : Progress}

theorem followedBy_alike {first first' : Except RenderFault Written}
    {next next' : Progress → Except RenderFault Written} (hfirst : FailsAlike first first')
    (hnext : ∀ p p', FailsAlike (next p) (next' p')) :
    FailsAlike (followedBy first next) (followedBy first' next') :=
  hfirst.bind fun w w' _ => (hnext w.2 w'.2).bind fun _ _ _ => .ok trivial

theorem writeInside_alike {write write' : Progress → Except RenderFault Written}
    (h : ∀ p p', FailsAlike (write p) (write' p')) :
    FailsAlike (p.writeInside write) (p'.writeInside write') :=
  (h p p').bind fun _ _ _ => .ok trivial

theorem writeTag_alike {write write' : Progress → Except RenderFault Written} (owes owes' : Bool)
    (h : ∀ p p', FailsAlike (write p) (write' p')) :
    FailsAlike (p.writeTag owes write) (p'.writeTag owes' write') :=
  (h _ _).bind fun _ _ _ => .ok trivial

theorem writeResult_alike {helper : Helper}
    (h : Together Value.Alike (helper.result ops) (helper.result ops')) :
    FailsAlike (writeResult site helper ops p) (writeResult site' helper ops' p') := by
  refine h.bind fun v w _ => ?_
  split
  · exact .ok trivial
  · exact .ok trivial

theorem writeCall_alike {name : String} {args : Arguments} (hname : isPlainName name = true)
    (hargs : args.isPlain = true) (h : site.scope.Alike site'.scope) :
    FailsAlike (writeCall site name args p) (writeCall site' name args p') := by
  refine (Arguments.operands_alike hargs h).bind fun ops ops' hops => ?_
  rw [isPlainName] at hname
  cases hhelper : Helper.ofName? name with
  | none => exact .error _
  | some helper =>
      rw [hhelper] at hname
      exact writeResult_alike (Helper.result_alike (by simpa using hname) hops)

theorem writeValue_eq (site : Site) (p : Progress) {a : Argument} {name : String}
    (h : a.name? = some name) :
    writeValue site a p =
      match Helper.ofName? name with
      | some helper => writeResult site helper .empty p
      | none => (a.operand site.scope).bind fun o =>
        match o.value? with
        | some v => .ok (p.put site v.written)
        | none => .error o.unbound := by
  cases a with
  | marker m =>
      cases h
      rfl
  | literal v =>
      simp only [writeValue, Argument.targetName, h]
      rfl
  | call name positional named => cases h

/-- A value in a tag of its own whose name can be read off the tag. A helper of that name is given
nothing, so it may be any. -/
theorem writeValue_alike {a : Argument} (ha : a.name?.isSome = true)
    (h : site.scope.Alike site'.scope) :
    FailsAlike (writeValue site a p) (writeValue site' a p') := by
  have hplain : a.isPlain = true := by
    cases a with
    | marker m => simp [Argument.isPlain]
    | literal v => simp [Argument.isPlain]
    | call name positional named => cases ha
  obtain ⟨name, hname⟩ := Option.isSome_iff_exists.mp ha
  rw [writeValue_eq site p hname, writeValue_eq site' p' hname]
  cases Helper.ofName? name with
  | some helper => exact writeResult_alike (.refl .refl _)
  | none =>
      refine (Argument.operand_alike h a hplain).bind fun o o' ho => ?_
      have hvalue := ho.value?
      generalize o.value? = x at hvalue
      generalize o'.value? = y at hvalue
      rw [ho.unbound]
      cases hvalue with
      | none => exact .error _
      | some _ => exact .ok trivial

/-! ## Rounds -/

theorem parts?_alike {v w : Value} (h : v.Alike w) :
    Option.Rel (List.Forall₂ fun x y : Option String × Value => x.1 = y.1 ∧ x.2.Alike y.2)
      v.parts? w.parts? := by
  cases h with
  | null => exact .none
  | flag b => exact .none
  | number n => exact .none
  | text h => exact .none
  | list h =>
      refine .some ?_
      induction h with
      | nil => exact .nil
      | cons hvw rest ih => exact .cons ⟨rfl, hvw⟩ ih
  | record h =>
      refine .some ?_
      induction h with
      | nil => exact .nil
      | cons hvw rest ih => exact .cons ⟨rfl, hvw⟩ ih

theorem roundNames_alike (names : List String) {key key' v w : Value} (hkey : key.Alike key')
    (hvw : v.Alike w) :
    Fieldwise Value.Alike (roundNames names key v) (roundNames names key' w) := by
  unfold roundNames
  split
  · exact .cons hvw .nil
  · exact .cons hkey (.cons hvw .nil)
  · exact .nil

theorem roundScope_alike (h : sc.Alike sc') (names : List String) (number : Nat) (isLast : Bool)
    (key? : Option String) {v w : Value} (hvw : v.Alike w) :
    (roundScope sc names number isLast key? v).Alike
      (roundScope sc' names number isLast key? w) := by
  have hgiven := alikeFields_refl
    [("index", .ofNat number), ("first", .flag (number = 0)), ("last", .flag isLast)]
  cases key? with
  | none => exact h.enter hvw hgiven (roundNames_alike names (.refl _) hvw)
  | some key =>
      exact h.enter hvw (.cons (.refl (.text key)) hgiven) (roundNames_alike names (.refl _) hvw)

theorem roundsFrom_alike (h : sc.Alike sc') (names : List String) (number : Nat)
    {parts parts' : List (Option String × Value)}
    (hparts : List.Forall₂ (fun x y => x.1 = y.1 ∧ x.2.Alike y.2) parts parts') :
    List.Forall₂ Scope.Alike (roundsFrom sc names number parts)
      (roundsFrom sc' names number parts') := by
  induction hparts generalizing number with
  | nil => exact .nil
  | @cons x y rest rest' hxy hrest ih =>
      obtain ⟨key?, v⟩ := x
      obtain ⟨key?', w⟩ := y
      obtain ⟨rfl, hvw⟩ := hxy
      have hlast : rest.isEmpty = rest'.isEmpty := by cases hrest <;> rfl
      rw [roundsFrom, roundsFrom, hlast]
      exact .cons (roundScope_alike h names number _ key? hvw) (ih (number + 1))

theorem concatRounds_alike {write write' : Scope → Progress → Except RenderFault Written}
    (hwrite : ∀ {sc sc'}, sc.Alike sc' → ∀ p p', FailsAlike (write sc p) (write' sc' p'))
    {scopes scopes' : List Scope} (h : List.Forall₂ Scope.Alike scopes scopes') (p p' : Progress) :
    FailsAlike (concatRounds write scopes p) (concatRounds write' scopes' p') := by
  induction h generalizing p p' with
  | nil => exact .ok trivial
  | cons hsc rest ih => exact followedBy_alike (hwrite hsc p p') ih

/-! ## Plain markup -/

/-- Whether markup has no partials and plain helpers only. A value is named by its tag. -/
def Markup.isPlain : Markup → Bool
  | .done => true
  | .text _ rest => rest.isPlain
  | .value a rest => a.name?.isSome && rest.isPlain
  | .call name arguments rest => isPlainName name && arguments.isPlain && rest.isPlain
  | .block head _ body _ inverse rest =>
    isPlainName head.name && head.arguments.isPlain && body.isPlain && inverse.isPlain && rest.isPlain
  | .directive .. | .insert .. => false

theorem writeBlock_alike {head : Head} {hasInverse : Bool}
    {body body' inverse inverse' : Scope → Progress → Except RenderFault Written}
    (hname : isPlainName head.name = true) (hargs : head.arguments.isPlain = true)
    (hbody : ∀ {sc sc'}, sc.Alike sc' → ∀ p p', FailsAlike (body sc p) (body' sc' p'))
    (hinverse : ∀ {sc sc'}, sc.Alike sc' → ∀ p p', FailsAlike (inverse sc p) (inverse' sc' p'))
    (h : site.scope.Alike site'.scope) (p p' : Progress) :
    FailsAlike (writeBlock site head hasInverse body inverse p)
      (writeBlock site' head hasInverse body' inverse' p') := by
  rw [isPlainName] at hname
  refine (Arguments.operands_alike hargs h).bind fun ops ops' hops => ?_
  cases hhelper : Helper.ofName? head.name with
  | none => exact .error _
  | some helper =>
      rw [hhelper] at hname
      simp only
      cases helper with
      | conditional expected =>
          refine (hops.need 0).bind fun o o' ho => ?_
          rw [ho.value.isTrue, hops.zeroCounts]
          split
          · exact hbody h p p'
          · exact hinverse h p p'
      | within =>
          refine (hops.need 0).bind fun o o' ho => ?_
          rw [ho.value.isTrue, ho.unbound]
          split
          · refine writeInside_alike (hbody (h.enter ho.value h.inner.given ?_))
            split
            · exact .cons ho.value .nil
            · exact .nil
          · split
            · exact hinverse h p p'
            · exact .error _
      | forEach =>
          refine (hops.need 0).bind fun o o' ho => ?_
          have hparts := parts?_alike ho.value
          generalize o.value.parts? = x at hparts
          generalize o'.value.parts? = y at hparts
          rw [ho.unbound]
          cases hparts with
          | none =>
              simp only
              split
              · exact hinverse h p p'
              · exact .error _
          | @some parts parts' hparts =>
              have hempty : parts.isEmpty = parts'.isEmpty := by cases hparts <;> rfl
              simp only [hempty]
              split
              · exact hinverse h p p'
              · exact writeInside_alike (concatRounds_alike hbody (roundsFrom_alike h head.names 0 hparts))
      | verbatim => exact hbody h p p'
      | test t =>
          refine (Test.holds_alike (by simpa [Helper.isPlain] using hname) hops).bind fun b b' hb => ?_
          rw [hb]
          split
          · exact hbody h p p'
          · exact hinverse h p p'
      | log => cases hname
      | lookup => cases hname
      | length => cases hname

/-- Plain markup fails alike in alike scopes. The induction is on the markup; what is inserted does not
come into it. -/
theorem Markup.writeWith_alike {inserted : Markup → Site → Progress → Except RenderFault Written}
    {m : Markup} (hm : m.isPlain = true) (h : site.scope.Alike site'.scope) (p p' : Progress) :
    FailsAlike (m.writeWith inserted site p) (m.writeWith inserted site' p') := by
  induction m generalizing site site' p p' with
  | done => exact .ok trivial
  | text s rest ih =>
      exact followedBy_alike (.ok trivial) (ih hm h)
  | value a rest ih =>
      simp only [Markup.isPlain, Bool.and_eq_true] at hm
      exact followedBy_alike (writeValue_alike hm.1 h) (ih hm.2 h)
  | call name arguments rest ih =>
      simp only [Markup.isPlain, Bool.and_eq_true] at hm
      exact followedBy_alike (writeCall_alike hm.1.1 hm.1.2 h) (ih hm.2 h)
  | block head alone body hasInverse inverse rest ihBody ihInverse ihRest =>
      simp only [Markup.isPlain, Bool.and_eq_true] at hm
      obtain ⟨⟨⟨⟨hname, hargs⟩, hbody⟩, hinverse⟩, hrest⟩ := hm
      refine followedBy_alike (writeTag_alike _ _ fun p p' => ?_) (ihRest hrest h)
      exact writeBlock_alike hname hargs (fun hsc => ihBody hbody hsc)
        (fun hsc => ihInverse hinverse hsc) h p p'
  | directive head hasBody body rest ihBody ihRest => cases hm
  | insert target arguments indent hasBody body rest ihBody ihRest => cases hm

/-! ## Templates -/

/-- Whether a template body is plain. One that is no markup is not rendered at all. -/
def isPlainBody (body : String) : Bool :=
  (Markup.parse body.toList).all Markup.isPlain

/-- Bindings of the same names, to texts of which none is empty where the other is not. -/
def AlikeBindings (b b' : Bindings) : Prop :=
  Fieldwise (fun s t : String => s = "" ↔ t = "") b.entries b'.entries

theorem ofBindings_alike {b b' : Bindings} (h : AlikeBindings b b') :
    (Value.ofBindings b).Alike (Value.ofBindings b') := by
  refine .record ?_
  rw [AlikeBindings] at h
  generalize b.entries = es at h
  generalize b'.entries = es' at h
  induction h with
  | nil => exact .nil
  | cons h rest ih => exact .cons (.text h) ih

theorem renderBody_alike {body : String} (hbody : isPlainBody body = true) {b b' : Bindings}
    (h : AlikeBindings b b') : FailsAlike (renderBody body b) (renderBody body b') := by
  rw [isPlainBody] at hbody
  rw [renderBody, renderBody]
  cases hparse : Markup.parse body.toList with
  | none => exact .error _
  | some m =>
      rw [hparse] at hbody
      have hroot : (Scope.ofRoot (.ofBindings b)).Alike (Scope.ofRoot (.ofBindings b')) :=
        .ofRoot (ofBindings_alike h)
      have hm : m.isPlain = true := by simpa using hbody
      have hwrite : FailsAlike (m.write (maxInsertions + 1) ⟨.ofRoot (.ofBindings b), [], none⟩ .start)
          (m.write (maxInsertions + 1) ⟨.ofRoot (.ofBindings b'), [], none⟩ .start) :=
        Markup.writeWith_alike hm hroot .start .start
      exact hwrite.bind fun _ _ _ => .ok trivial

end DemoScaffold.Template
