import DemoScaffold.Json.Text
import DemoScaffold.Text.Order

/-!
# Bindings

The texts that markers stand for, kept in the order of the names.
-/

namespace DemoScaffold

structure Bindings where
  entries : List (String × String)
deriving DecidableEq, Repr, Inhabited

namespace Bindings

def empty : Bindings := ⟨[]⟩

/-- The entries with `name` bound to `a`, at the place of its old binding or where the order of the
names puts it. -/
def bind {α : Type} (name : String) (a : α) : List (String × α) → List (String × α)
  | [] => [(name, a)]
  | e :: rest =>
    if e.1 = name then (name, a) :: rest
    else if Text.before name e.1 then (name, a) :: e :: rest
    else e :: bind name a rest

/-- Binds a name, in place of its old text if it had one. -/
def insert (b : Bindings) (name text : String) : Bindings :=
  ⟨bind name text b.entries⟩

/-- The bindings made by inserting the pairs one after the other. -/
def ofList (pairs : List (String × String)) : Bindings :=
  pairs.foldl (fun b pair => b.insert pair.1 pair.2) empty

def get? (b : Bindings) (name : String) : Option String :=
  (b.entries.find? (·.1 = name)).map (·.2)

def size (b : Bindings) : Nat :=
  b.entries.length

def isEmpty (b : Bindings) : Bool :=
  b.entries.isEmpty

/-- The bindings as a JSON object without white space. -/
def json (b : Bindings) : List Char :=
  let member (e : String × String) : List Char :=
    Json.quoted e.1.toList ++ ':' :: Json.quoted e.2.toList
  '\x7b' :: [','].intercalate (b.entries.map member) ++ ['}']

def erase (b : Bindings) (name : String) : Bindings :=
  ⟨b.entries.filter (·.1 ≠ name)⟩

end Bindings

end DemoScaffold
