import DemoScaffold.Proofs.Bindings
import DemoScaffold.Proofs.Json.Written

/-!
# Objects with any members

The members of an object are read in the order in which they are written. Bindings are written as such an
object, so that its text and the bindings determine each other (`json_of_inserts`).
-/

namespace DemoScaffold

namespace Json

variable {α : Type} {value : Reader α} {g : α → List Token} {members : List (String × α)}

/-- Reads the members of an object up to its end, at most `limit` of them. -/
def readMembers (value : Reader α) : (limit : Nat) → (isFirst : Bool) → Reader (List (String × α))
  | 0, _, _ => .error .eofInObject
  | limit + 1, isFirst, ts => do
    match ← nextKey isFirst ts with
    | none => return ([], ts.tail)
    | some (key, rest) =>
      let (x, rest) ← value (← readColon rest)
      let (members, rest) ← readMembers value limit false rest
      return ((key, x) :: members, rest)

/-- Reads an object. It has no more members than tokens. -/
def readObject (value : Reader α) : Reader (List (String × α))
  | .openObject :: rest => readMembers value (rest.length + 1) true rest
  | ts => .error (mismatch "a map" ts)

/-- The tokens of a member. -/
def pairTokens (g : α → List Token) (member : String × α) : List Token :=
  .text (.ok member.1.toList) :: .colon :: g member.2

/-- The tokens of an object. -/
def objectTokens (g : α → List Token) : List (String × α) → List Token
  | [] => [.openObject, .closeObject]
  | member :: more =>
    .openObject :: (pairTokens g member ++ more.flatMap (fun m => .comma :: pairTokens g m) ++
      [.closeObject])

/-- A member is read and what follows it is left to the members behind it. -/
theorem readMembers_cons {isFirst : Bool} {limit : Nat} {m : String × α} {ts rest : List Token}
    (h : Takes value (g m.2) m.2)
    (hkey : nextKey isFirst ts = .ok (some (m.1, .colon :: (g m.2 ++ rest)))) :
    readMembers value (limit + 1) isFirst ts =
      (readMembers value limit false rest).map fun (more, rest) => (m :: more, rest) := by
  rw [readMembers, hkey]
  simp only [bind, Except.bind, readColon]
  rw [h]
  simp only
  cases readMembers value limit false rest <;> rfl

theorem readMembers_further {limit : Nat} (rest : List Token)
    (h : ∀ m ∈ members, Takes value (g m.2) m.2) (hlimit : members.length < limit) :
    readMembers value limit false
      (members.flatMap (fun m => .comma :: pairTokens g m) ++ .closeObject :: rest) =
        .ok (members, rest) := by
  induction members generalizing limit with
  | nil =>
      obtain ⟨limit, rfl⟩ := Nat.exists_eq_succ_of_ne_zero (Nat.ne_of_gt hlimit)
      rfl
  | cons m more ih =>
      obtain ⟨hm, hmore⟩ := List.forall_mem_cons.mp h
      obtain ⟨limit, rfl⟩ := Nat.exists_eq_succ_of_ne_zero (Nat.ne_of_gt (Nat.zero_lt_of_lt hlimit))
      rw [List.length_cons] at hlimit
      rw [List.flatMap_cons, List.cons_append, List.cons_append, List.append_assoc, pairTokens,
        List.cons_append, List.cons_append, readMembers_cons hm (nextKey_further _ _),
        ih hmore (by omega)]
      rfl

theorem takes_object (h : ∀ m ∈ members, Takes value (g m.2) m.2) :
    Takes (readObject value) (objectTokens g members) members := by
  intro rest
  cases members with
  | nil => rfl
  | cons m more =>
      obtain ⟨hm, hmore⟩ := List.forall_mem_cons.mp h
      have hcount := length_le_length_flatMap (pairTokens g) more
      have hlimit : more.length < (pairTokens g m ++
          (more.flatMap (fun m => .comma :: pairTokens g m) ++ .closeObject :: rest)).length := by
        simp only [List.length_append, List.length_cons]
        omega
      rw [objectTokens, List.cons_append, List.append_assoc, List.append_assoc, List.singleton_append,
        readObject]
      rw [pairTokens, List.cons_append, List.cons_append] at hlimit ⊢
      rw [readMembers_cons hm (nextKey_first _ _), readMembers_further rest hmore hlimit]
      rfl

end Json

namespace Bindings

open Json

/-- The names and texts of a JSON object, in the order in which they are written. -/
def readJson (s : List Char) : Except JsonFault (List (String × String)) :=
  readWhole (readObject (readString "a string")) s

theorem spells_json (b : Bindings) :
    Spells b.json (objectTokens (fun text => [.text (.ok text.toList)]) b.entries) := by
  have hopen : Spells ['\x7b'] [.openObject] := fun _ => rfl
  have hcolon : Spells [':'] [.colon] := fun _ => rfl
  have hcomma : Spells [','] [.comma] := fun _ => rfl
  have hclose : Spells ['}'] [.closeObject] := fun _ => rfl
  have hmember (e : String × String) : Spells (quoted e.1.toList ++ ':' :: quoted e.2.toList)
      (pairTokens (fun text => [.text (.ok text.toList)]) e) :=
    (Spells.text e.1.toList).append (hcolon.append (.text e.2.toList))
  obtain ⟨entries⟩ := b
  cases entries with
  | nil => exact hopen.append hclose
  | cons e more => exact (hopen.append (.separated hcomma e more fun e _ => hmember e)).append hclose

theorem readJson_json (b : Bindings) : readJson b.json = .ok b.entries := by
  have htakes : Takes (readObject (readString "a string"))
      (objectTokens (fun text => [.text (.ok text.toList)]) b.entries) b.entries :=
    takes_object fun e _ => takes_string "a string" e.2
  have hall := htakes []
  rw [List.append_nil] at hall
  rw [readJson, readWhole, b.spells_json.tokens_eq, hall]
  rfl

theorem json_inj {b b' : Bindings} : b.json = b'.json ↔ b = b' := by
  constructor
  · intro h
    have hentries : (.ok b.entries : Except JsonFault _) = .ok b'.entries := by
      rw [← readJson_json, ← readJson_json, h]
    exact congrArg Bindings.mk (Except.ok.inj hentries)
  · rintro rfl
    rfl

/-- What is found for a name is the text that was inserted last for it, and there are as many bindings as
names. The bindings are written as a JSON object that has each name once, in the order of the bytes, with
its text. So two rows of insertions are written alike exactly if the same is found for every name. -/
theorem json_of_inserts (pairs : List (String × String)) :
    (∀ name text, (ofList pairs).get? name = some text ↔
      ∃ before after, pairs = before ++ (name, text) :: after ∧ ∀ p ∈ after, p.1 ≠ name) ∧
    (∀ name, (ofList pairs).get? name = none ↔ ∀ p ∈ pairs, p.1 ≠ name) ∧
    (ofList pairs).size = (pairs.map Prod.fst).toFinset.card ∧
    (∃ members, readJson (ofList pairs).json = .ok members ∧
      members.Pairwise (fun e f => Text.byteKey e.1 < Text.byteKey f.1) ∧
      ∀ name text, (name, text) ∈ members ↔ (ofList pairs).get? name = some text) ∧
    ∀ others, (ofList pairs).json = (ofList others).json ↔
      ∀ name, (ofList pairs).get? name = (ofList others).get? name := by
  have horder := inOrder_ofList pairs
  refine ⟨fun name text => get?_ofList_eq_some_iff, fun name => get?_ofList_eq_none_iff,
    size_ofList pairs, ⟨_, readJson_json _, horder.imp Text.before_iff.mp,
      fun name text => (get?_eq_some_iff horder).symm⟩, fun others => ?_⟩
  rw [json_inj]
  constructor
  · intro h name
    rw [h]
  · exact eq_of_get? horder (inOrder_ofList others)

end Bindings

end DemoScaffold
