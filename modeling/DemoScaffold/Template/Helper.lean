import DemoScaffold.Template.Argument
import DemoScaffold.Template.Scope

/-!
# Helpers

What the names of helpers stand for, and the values that they make of what they are given. Some
helpers choose between the two parts of a block; where they have no block they make an empty text.
-/

namespace DemoScaffold.Template

/-! ## What is given -/

/-- What an argument stands for: its value, if it has one, and how it is named if it has none. -/
structure Operand where
  name : Option String
  value? : Option Value
deriving Repr, Inhabited

namespace Operand

/-- The value, which is null if there is none. -/
def value (o : Operand) : Value :=
  o.value?.getD .null

/-- The fault of an operand that has to have a value other than this. -/
def unbound (o : Operand) : RenderFault :=
  .unbound (o.name.getD "<unknown>")

end Operand

structure Operands where
  positional : List Operand
  named : List (String × Operand)
deriving Repr, Inhabited

namespace Operands

def empty : Operands := ⟨[], []⟩

/-- The operand at some place. It has to be given. -/
def need (ops : Operands) (place : Nat) : Except RenderFault Operand :=
  match ops.positional[place]? with
  | some o => .ok o
  | none => .error (.missingOperand place)

/-- The value of the operand at some place. It has to have one. -/
def needValue (ops : Operands) (place : Nat) : Except RenderFault Value :=
  match ops.positional[place]? with
  | some ⟨_, some v⟩ => .ok v
  | _ => .error (.missingOperand place)

def named? (ops : Operands) (name : String) : Option Value :=
  (ops.named.lookup name).map Operand.value

/-- Whether conditions are to count zero as true. -/
def zeroCounts (ops : Operands) : Bool :=
  match ops.named? "includeZero" with
  | some (.flag b) => b
  | _ => false

end Operands

/-! ## Helpers -/

inductive Test where
  | equal
  | different
  | greater
  | atLeast
  | less
  | atMost
  | all
  | any
  | none
deriving DecidableEq, Repr

inductive Helper where
  | conditional (expected : Bool)
  | forEach
  | within
  | verbatim
  | log
  | lookup
  | length
  | test (t : Test)
deriving DecidableEq, Repr

def helperNames : List (String × Helper) :=
  [ ("if", .conditional true), ("unless", .conditional false), ("each", .forEach),
    ("with", .within), ("raw", .verbatim), ("log", .log), ("lookup", .lookup), ("len", .length),
    ("eq", .test .equal), ("ne", .test .different), ("gt", .test .greater),
    ("gte", .test .atLeast), ("lt", .test .less), ("lte", .test .atMost), ("and", .test .all),
    ("or", .test .any), ("not", .test .none) ]

def Helper.ofName? (name : String) : Option Helper :=
  helperNames.lookup name

/-! ## Tests -/

/-- Whether the order of the first two values is one of those asked for. -/
def ordered (orders : List Ordering) (ops : Operands) : Except RenderFault Bool := do
  let v ← ops.needValue 0
  let w ← ops.needValue 1
  return (v.order? w).any fun order => orders.contains order

/-- The answer to a question. Only `all` and `any` also take operands without a value. -/
def Test.holds (ops : Operands) : Test → Except RenderFault Bool
  | .equal => do return (← ops.needValue 0).same (← ops.needValue 1)
  | .different => do return !(← ops.needValue 0).same (← ops.needValue 1)
  | .greater => ordered [.gt] ops
  | .atLeast => ordered [.gt, .eq] ops
  | .less => ordered [.lt] ops
  | .atMost => ordered [.lt, .eq] ops
  | .all => .ok (ops.positional.all fun o => o.value.isTrue false)
  | .any => .ok (ops.positional.any fun o => o.value.isTrue false)
  | .none => do return !(← ops.needValue 0).isTrue false

/-! ## Results -/

/-- The number of items, fields or bytes of a value. -/
def Value.length : Value → Nat
  | .list items => items.length
  | .record fields => fields.length
  | .text s => s.utf8ByteSize
  | _ => 0

/-- The part of a value that another value tells: an item by a number, a field by a text. -/
def Value.pick? : Value → Value → Option Value
  | .list items, .number (.natural i) => items[i]?
  | .record fields, .text name => fields.lookup name
  | _, _ => none

/-- The part asked for, which has to be there. -/
def lookUp (ops : Operands) : Except RenderFault Value := do
  let o ← ops.need 0
  let key ← ops.need 1
  match o.value.pick? key.value with
  | some v => return v
  | none => throw (.unbound "<unknown>")

/-- The levels of log messages. -/
def logLevels : List String := ["error", "warn", "info", "debug", "trace"]

/-- Whether the level of a log message exists, if one is given. -/
def checkLog (ops : Operands) : Except RenderFault Unit :=
  match ops.named? "level" with
  | some (.text level) =>
    if String.ofList (level.toList.map Char.toLower) ∈ logLevels then .ok ()
    else .error (.badLevel level)
  | _ => .ok ()

/-- What a helper makes of its operands where it has no block. -/
def Helper.result (ops : Operands) : Helper → Except RenderFault Value
  | .conditional _ | .forEach => do
    let _ ← ops.need 0
    return .text ""
  | .within => do
    let o ← ops.need 0
    if o.value.isTrue false then return .text "" else throw o.unbound
  | .verbatim => .ok (.text "")
  | .log => do
    checkLog ops
    return .text ""
  | .lookup => lookUp ops
  | .length => do return .ofNat (← ops.needValue 0).length
  | .test t => do return .flag (← t.holds ops)

/-! ## Evaluation of arguments -/

/-- What the helper of a name makes of its operands. -/
def applyNamed (name : String) (ops : Operands) : Except RenderFault Value :=
  match Helper.ofName? name with
  | some helper => helper.result ops
  | none => .error (.unknownHelper name)

mutual
def Argument.operand (sc : Scope) : Argument → Except RenderFault Operand
  | .marker m => do return ⟨some m.written, ← m.value? sc⟩
  | .literal v => .ok ⟨none, some v⟩
  | .call name positional named => do
    let positional ← operandsOf sc positional
    let named ← namedOperandsOf sc named
    return ⟨none, some (← applyNamed name ⟨positional, named⟩)⟩

/-- What arguments given by position stand for. -/
def operandsOf (sc : Scope) : List Argument → Except RenderFault (List Operand)
  | [] => .ok []
  | a :: rest => do
    let o ← a.operand sc
    let more ← operandsOf sc rest
    return o :: more

/-- What arguments given by name stand for. -/
def namedOperandsOf (sc : Scope) :
    List (String × Argument) → Except RenderFault (List (String × Operand))
  | [] => .ok []
  | (name, a) :: rest => do
    let o ← a.operand sc
    let more ← namedOperandsOf sc rest
    return (name, o) :: more
end

def Arguments.operands (sc : Scope) (args : Arguments) : Except RenderFault Operands := do
  let positional ← operandsOf sc args.positional
  let named ← namedOperandsOf sc args.named
  return ⟨positional, named⟩

end DemoScaffold.Template
