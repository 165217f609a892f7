import DemoScaffold.Template.Basic
import DemoScaffold.Template.Partial

/-!
# Rendering

Markup is evaluated from left to right at a site. A marker without a value is an error, and so is
the use of a helper that does not exist; a branch that is not taken is not evaluated.
-/

namespace DemoScaffold.Template

/-! ## Rounds -/

/-- The names that a round of a block gives to its value and its key. -/
def roundNames (names : List String) (key value : Value) : List (String × Value) :=
  match names with
  | [name] => [(name, value)]
  | [name, other] => [(other, key), (name, value)]
  | _ => []

/-- What each round over a list or a record gives: its number, its key if it has one, and whether it
is the first or the last one. -/
def roundScope (sc : Scope) (names : List String) (number : Nat) (isLast : Bool)
    (key? : Option String) (v : Value) : Scope :=
  let given : List (String × Value) :=
    [("index", .ofNat number), ("first", .flag (number = 0)), ("last", .flag isLast)]
  match key? with
  | some key => sc.enter v (("key", .text key) :: given) (roundNames names (.text key) v)
  | none => sc.enter v given (roundNames names (.ofNat number) v)

/-- The scopes of the rounds from some number on. -/
def roundsFrom (sc : Scope) (names : List String) : (number : Nat) →
    List (Option String × Value) → List Scope
  | _, [] => []
  | number, (key?, v) :: rest =>
    roundScope sc names number rest.isEmpty key? v :: roundsFrom sc names (number + 1) rest

/-- What a block goes over: items without keys or fields with theirs; none if the value is neither a
list nor a record. -/
def Value.parts? : Value → Option (List (Option String × Value))
  | .list items => some (items.map fun v => (none, v))
  | .record fields => some (fields.map fun (key, v) => (some key, v))
  | _ => none

/-- What a text and what follows it write together. -/
def followedBy (first : Except RenderFault Written)
    (next : Progress → Except RenderFault Written) : Except RenderFault Written := do
  let (s, p) ← first
  let (more, p) ← next p
  return (s ++ more, p)

/-- What each round writes, one after the other. -/
def concatRounds (write : Scope → Progress → Except RenderFault Written) :
    List Scope → Progress → Except RenderFault Written
  | [], p => .ok ([], p)
  | sc :: rest, p => followedBy (write sc p) (concatRounds write rest)

/-! ## Values -/

/-- What the result of a helper writes. The answer to a question is written as it stands. -/
def writeResult (site : Site) (helper : Helper) (ops : Operands) (p : Progress) :
    Except RenderFault Written := do
  let v ← helper.result ops
  match helper with
  | .test _ => return (v.written, p)
  | _ => return p.put site v.written

/-- What a helper and its arguments write in a tag of their own. -/
def writeCall (site : Site) (name : String) (arguments : Arguments) (p : Progress) :
    Except RenderFault Written := do
  let ops ← arguments.operands site.scope
  match Helper.ofName? name with
  | some helper => writeResult site helper ops p
  | none => throw (.unknownHelper name)

/-- What a value in a tag of its own writes. If it is the name of a helper, that helper is meant. -/
def writeValue (site : Site) (a : Argument) (p : Progress) : Except RenderFault Written := do
  let name ← match a with
    | .marker m => pure m.written
    | _ => a.targetName site.scope
  match Helper.ofName? name with
  | some helper => writeResult site helper .empty p
  | none =>
    let o ← a.operand site.scope
    match o.value? with
    | some v => return p.put site v.written
    | none => throw o.unbound

/-! ## Blocks -/

/-- What a block writes, given what its parts do. -/
def writeBlock (site : Site) (head : Head) (hasInverse : Bool)
    (body inverse : Scope → Progress → Except RenderFault Written) (p : Progress) :
    Except RenderFault Written := do
  let sc := site.scope
  let ops ← head.arguments.operands sc
  match Helper.ofName? head.name with
  | none => throw (.unknownHelper head.name)
  | some (.conditional expected) =>
    let o ← ops.need 0
    if o.value.isTrue ops.zeroCounts = expected then body sc p else inverse sc p
  | some .within =>
    let o ← ops.need 0
    if o.value.isTrue false then
      let named := match head.names with
        | [name] => [(name, o.value)]
        | _ => []
      p.writeInside (body (sc.enterWith o.value named))
    else if hasInverse then inverse sc p
    else throw o.unbound
  | some .forEach =>
    let o ← ops.need 0
    match o.value.parts? with
    | some parts =>
      if parts.isEmpty && hasInverse then inverse sc p
      else p.writeInside (concatRounds body (roundsFrom sc head.names 0 parts))
    | none => if hasInverse then inverse sc p else throw o.unbound
  | some .verbatim => body sc p
  | some .log =>
    checkLog ops
    return ([], p)
  | some (.test t) => if ← t.holds ops then body sc p else inverse sc p
  | some .lookup => writeResult site .lookup ops p
  | some .length => writeResult site .length ops p

/-! ## Evaluation -/

/-- What markup writes at a site, given what inserted markup does. -/
def Markup.writeWith (inserted : Markup → Site → Progress → Except RenderFault Written) :
    Markup → Site → Progress → Except RenderFault Written
  | .done, _, p => .ok ([], p)
  | .text s rest, site, p =>
    followedBy (.ok (p.put site s)) fun p => rest.writeWith inserted site p
  | .value a rest, site, p =>
    followedBy (writeValue site a p) fun p => rest.writeWith inserted site p
  | .call name arguments rest, site, p =>
    followedBy (writeCall site name arguments p) fun p => rest.writeWith inserted site p
  | .block head alone body hasInverse inverse rest, site, p =>
    let write := writeBlock site head hasInverse
      (fun scope p => body.writeWith inserted { site with scope } p)
      (fun scope p => inverse.writeWith inserted { site with scope } p)
    followedBy (p.writeTag (p.pen.owesBlanks || alone && p.pen.endedLine) write)
      fun p => rest.writeWith inserted site p
  | .directive head hasBody body rest, site, p => do
    let partials ← p.partials.define site.scope head (if hasBody then some body else none)
    rest.writeWith inserted site { p with partials }
  | .insert target arguments indent hasBody body rest, site, p => do
    let name ← target.targetName site.scope
    let ops ← arguments.operands site.scope
    let write := writePartial inserted site name ops indent.blanks
      (if hasBody then some fun site p => body.writeWith inserted site p else none)
    let owes := indent.owned && (p.pen.endedLine || !indent.blanks.isEmpty)
    followedBy (p.writeTag owes write) fun p => rest.writeWith inserted site p

/-- What markup writes at a site, with at most `depth` insertions within each other. -/
def Markup.write : (depth : Nat) → Markup → Site → Progress → Except RenderFault Written
  | 0, _, _, _ => .error .tooDeep
  | depth + 1, m, site, p => m.writeWith (Markup.write depth) site p

/-- How many insertions may stand within each other. -/
def maxInsertions : Nat := 10000

/-- The text of a template body under some bindings. -/
def renderBody (body : String) (b : Bindings) : Except RenderFault String :=
  match Markup.parse body.toList with
  | none => .error .malformed
  | some m => do
    let (s, _) ← m.write (maxInsertions + 1) ⟨.ofRoot (.ofBindings b), [], none⟩ .start
    return String.ofList s

end DemoScaffold.Template
