import DemoScaffold.Json.Reader
import DemoScaffold.Proofs.Json.Quoted

/-!
# Written values

A text spells tokens if it is read as those tokens whatever follows it. A reader takes tokens as a value
if it makes that value of them and leaves what follows. Both properties are put together from parts, so
that a written value is read back part by part.
-/

namespace DemoScaffold.Json

variable {α β : Type} {s s' sep : List Char} {ts ts' us : List Token} {x : α}

/-! ## Texts that spell tokens -/

/-- The text is read as the tokens, whatever follows it. -/
def Spells (s : List Char) (ts : List Token) : Prop :=
  ∀ rest, tokens (s ++ rest) = ts ++ tokens rest

theorem tokensAfter_append (skipped rest : List Char) :
    tokensAfter skipped.length (skipped ++ rest) = tokensAfter 0 rest := by
  induction skipped with
  | nil => rfl
  | cons c more ih =>
      rw [List.length_cons, List.cons_append, tokensAfter]
      exact ih

namespace Spells

theorem tokens_eq (h : Spells s ts) : tokens s = ts := by
  have hend := h []
  rwa [List.append_nil, show tokens [] = [] from rfl, List.append_nil] at hend

theorem nil : Spells [] [] := fun _ => rfl

theorem append (h : Spells s ts) (h' : Spells s' ts') : Spells (s ++ s') (ts ++ ts') := by
  intro rest
  rw [List.append_assoc, h, h', List.append_assoc]

theorem blank (h : ∀ c ∈ s, isSpace c = true) : Spells s [] := by
  induction s with
  | nil => exact nil
  | cons c more ih =>
      obtain ⟨hc, hmore⟩ := List.forall_mem_cons.mp h
      intro rest
      rw [List.cons_append, tokens, tokensAfter, if_pos hc]
      exact ih hmore rest

theorem text (s : List Char) : Spells (quoted s) [.text (.ok s)] := by
  intro rest
  have hquoted : quoted s ++ rest = '"' :: (s.flatMap quotedChar ++ '"' :: rest) := by
    simp [quoted]
  have hfirst : firstToken '"' (s.flatMap quotedChar ++ '"' :: rest) =
      (.text (.ok s), some (s.flatMap quotedChar ++ ['"']).length) := by
    have hlength := textLength_quoted s rest
    have hread := readText_quoted s rest
    generalize s.flatMap quotedChar ++ '"' :: rest = behind at hlength hread
    have hopen {length : Nat} (h : textLength behind = .ok length) :
        firstToken '"' behind = (.text (readText behind), some length) := by
      simp [firstToken, h]
    rw [hopen hlength, hread]
  have hrest : s.flatMap quotedChar ++ '"' :: rest = (s.flatMap quotedChar ++ ['"']) ++ rest := by
    simp
  rw [hquoted, tokens, tokensAfter, if_neg (by decide), hfirst]
  simp only
  rw [hrest, tokensAfter_append]
  rfl

theorem separated {f : β → List Char} {g : β → List Token} (hsep : Spells sep us) (y : β)
    (ys : List β) (h : ∀ z ∈ y :: ys, Spells (f z) (g z)) :
    Spells (sep.intercalate ((y :: ys).map f)) (g y ++ ys.flatMap fun z => us ++ g z) := by
  induction ys generalizing y with
  | nil =>
      rw [List.map_singleton, List.intercalate_singleton, List.flatMap_nil, List.append_nil]
      exact h y (List.mem_singleton_self y)
  | cons z zs ih =>
      obtain ⟨hy, hzs⟩ := List.forall_mem_cons.mp h
      rw [List.map_cons, List.map_cons, List.intercalate_cons_cons, List.flatMap_cons,
        List.append_assoc us, ← List.append_assoc]
      exact (hy.append hsep).append (ih z hzs)

end Spells

/-! ## Readers that take tokens -/

/-- The reader makes the value of the tokens and leaves what follows. -/
def Takes (read : Reader α) (ts : List Token) (x : α) : Prop :=
  ∀ rest, read (ts ++ rest) = .ok (x, rest)

/-- There are tokens, and they do not start with the end of a list. -/
def StartsItem : List Token → Prop
  | [] => False
  | .closeList :: _ => False
  | _ => True

theorem takes_string (expected : String) (s : String) :
    Takes (readString expected) [.text (.ok s.toList)] s := by
  intro rest
  simp only [List.singleton_append, readString, String.ofList_toList]

theorem nextItem_first (h : StartsItem ts) (rest : List Token) :
    nextItem true (ts ++ rest) = .ok (some (ts ++ rest)) := by
  match ts with
  | t :: more => cases t <;> first | exact h.elim | rfl

theorem nextItem_further (h : StartsItem ts) (rest : List Token) :
    nextItem false (.comma :: (ts ++ rest)) = .ok (some (ts ++ rest)) := by
  match ts with
  | t :: more => cases t <;> first | exact h.elim | rfl

section List

variable {item : Reader α} {g : α → List Token}

theorem readItems_further {limit : Nat} {xs : List α} (rest : List Token)
    (h : ∀ x ∈ xs, StartsItem (g x) ∧ Takes item (g x) x) (hlimit : xs.length < limit) :
    readItems item limit false (xs.flatMap (fun x => .comma :: g x) ++ .closeList :: rest) =
      .ok (xs, rest) := by
  induction xs generalizing limit with
  | nil =>
      obtain ⟨limit, rfl⟩ := Nat.exists_eq_succ_of_ne_zero (Nat.ne_of_gt hlimit)
      rfl
  | cons x xs ih =>
      obtain ⟨⟨hstarts, htakes⟩, hxs⟩ := List.forall_mem_cons.mp h
      obtain ⟨limit, rfl⟩ := Nat.exists_eq_succ_of_ne_zero (Nat.ne_of_gt (Nat.zero_lt_of_lt hlimit))
      rw [List.length_cons] at hlimit
      rw [List.flatMap_cons, List.cons_append, List.cons_append, List.append_assoc, readItems,
        nextItem_further hstarts]
      simp only [bind, Except.bind]
      rw [htakes]
      simp only
      rw [ih hxs (by omega)]
      rfl

theorem takes_list_nil (item : Reader α) : Takes (readList item) [.openList, .closeList] [] :=
  fun _ => rfl

theorem length_le_length_flatMap (g : α → List Token) (xs : List α) :
    xs.length ≤ (xs.flatMap fun x => .comma :: g x).length := by
  induction xs with
  | nil => simp
  | cons x xs ih =>
      simp only [List.flatMap_cons, List.length_append, List.length_cons] at ih ⊢
      omega

theorem takes_list_cons {xs : List α} (h : ∀ y ∈ x :: xs, StartsItem (g y) ∧ Takes item (g y) y) :
    Takes (readList item)
      (.openList :: (g x ++ xs.flatMap (fun y => .comma :: g y) ++ [.closeList])) (x :: xs) := by
  intro rest
  obtain ⟨⟨hstarts, htakes⟩, hxs⟩ := List.forall_mem_cons.mp h
  have hcount := length_le_length_flatMap g xs
  have hlimit : xs.length < (g x ++ (xs.flatMap (fun y => .comma :: g y) ++
      .closeList :: rest)).length := by
    simp only [List.length_append, List.length_cons]
    omega
  rw [List.cons_append, List.append_assoc, List.append_assoc, List.singleton_append, readList,
    readItems, nextItem_first hstarts]
  simp only [bind, Except.bind]
  rw [htakes]
  simp only
  rw [readItems_further rest hxs hlimit]
  rfl

end List

/-! ## Records -/

theorem nextKey_first (key : String) (rest : List Token) :
    nextKey true (.text (.ok key.toList) :: rest) = .ok (some (key, rest)) := by
  simp [nextKey, readKey, Except.map]

theorem nextKey_further (key : String) (rest : List Token) :
    nextKey false (.comma :: .text (.ok key.toList) :: rest) = .ok (some (key, rest)) := by
  simp [nextKey, readKey, Except.map]

theorem readOnce_of_takes {f : Field α} (h : Takes f.read ts x) (rest : List Token) :
    f.readOnce none (.colon :: (ts ++ rest)) = .ok (x, rest) :=
  h rest

section Record

variable {r : Record α β} {y : β} {limit : Nat} {isFirst : Bool} {members rest : List Token}

theorem readMembers_first (b : Option β) (h : Takes r.first.read ts x)
    (hkey : nextKey isFirst members = .ok (some (r.first.name, .colon :: (ts ++ rest)))) :
    r.readMembers (limit + 1) isFirst none b members = r.readMembers limit false (some x) b rest := by
  rw [Record.readMembers, hkey]
  simp only [bind, Except.bind, if_true]
  rw [readOnce_of_takes h]

theorem readMembers_second (hnames : r.first.name ≠ r.second.name) (a : Option α)
    (h : Takes r.second.read ts y)
    (hkey : nextKey isFirst members = .ok (some (r.second.name, .colon :: (ts ++ rest)))) :
    r.readMembers (limit + 1) isFirst a none members = r.readMembers limit false a (some y) rest := by
  rw [Record.readMembers, hkey]
  simp only [bind, Except.bind, if_neg hnames.symm, if_true]
  rw [readOnce_of_takes h]

/-- The tokens of an object with two members. -/
def memberTokens (key key' : String) (ts ts' : List Token) : List Token :=
  .openObject :: .text (.ok key.toList) :: .colon :: (ts ++
    .comma :: .text (.ok key'.toList) :: .colon :: (ts' ++ [.closeObject]))

theorem takes_record (hnames : r.first.name ≠ r.second.name) (hfirst : Takes r.first.read ts x)
    (hsecond : Takes r.second.read ts' y) :
    Takes r.read (memberTokens r.first.name r.second.name ts ts') (x, y) := by
  intro rest
  rw [memberTokens, List.cons_append, Record.read]
  simp only [List.cons_append, List.append_assoc, List.nil_append]
  -- each of the two members and the end of the object takes one of the limit
  generalize hlimit : (Token.text (.ok r.first.name.toList) :: .colon :: (ts ++
    .comma :: .text (.ok r.second.name.toList) :: .colon ::
      (ts' ++ .closeObject :: rest))).length + 1 = limit
  obtain ⟨n, rfl⟩ : ∃ n, limit = n + 3 := ⟨limit - 3, by
    simp only [List.length_cons, List.length_append] at hlimit
    omega⟩
  rw [readMembers_first none hfirst (nextKey_first _ _),
    readMembers_second hnames _ hsecond (nextKey_further _ _)]
  rfl

end Record

end DemoScaffold.Json
