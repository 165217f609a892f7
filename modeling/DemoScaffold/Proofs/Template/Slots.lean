import DemoScaffold.Proofs.Template.Written
import DemoScaffold.Proofs.Text.Spans
import DemoScaffold.Template.Helper

/-!
# Slots

A slot is a single name in two or three braces. It is read as the value of that name, whatever stands
behind it (`Slot.readBraces_written`).
-/

namespace DemoScaffold.Template

/-! ## Slots -/

/-- The ways to put a name in braces. -/
inductive SlotForm where
  | double
  | triple
  | ampersand
deriving DecidableEq, Repr

/-- A name in braces that is not the word of the current value and not a helper's. In double braces it
does not begin like the middle of a block either. -/
structure Slot where
  form : SlotForm
  name : String
  isPlain : name ≠ "" ∧ ∀ c ∈ name.toList, isNameChar c = true
  isFree : name ≠ "this" ∧ Helper.ofName? name = none
  isNoMiddle : form = .double → ¬ ['e', 'l', 's', 'e'] <+: name.toList

namespace Slot

def written (x : Slot) : List Char :=
  match x.form with
  | .double => ['\x7b', '\x7b'] ++ x.name.toList ++ ['}', '}']
  | .triple => ['\x7b', '\x7b', '\x7b'] ++ x.name.toList ++ ['}', '}', '}']
  | .ampersand => ['\x7b', '\x7b', '&'] ++ x.name.toList ++ ['}', '}']

def marker (x : Slot) : Marker := ⟨x.name, false, false, 0, [x.name]⟩

def tag (x : Slot) : Tag := ⟨.value (.marker x.marker), false, false⟩

end Slot

/-! ## Reading names -/

variable {c : Char} {word name s rest : List Char}

theorem ne_of_isNameChar {d : Char} (hc : isNameChar c = true) (hd : isNameChar d = false) : c ≠ d := by
  rintro rfl
  rw [hc] at hd
  cases hd

theorem isSpace_of_isNameChar (hc : isNameChar c = true) : isSpace c = false := by
  have hspace := ne_of_isNameChar hc (d := ' ') (by decide)
  have htab := ne_of_isNameChar hc (d := '\t') (by decide)
  have hfeed := ne_of_isNameChar hc (d := '\n') (by decide)
  have hreturn := ne_of_isNameChar hc (d := '\r') (by decide)
  simp [isSpace, hspace, htab, hfeed, hreturn]

theorem isJoint_of_isNameChar (hc : isNameChar c = true) : isJoint c = false := by
  have hdot := ne_of_isNameChar hc (d := '.') (by decide)
  have hslash := ne_of_isNameChar hc (d := '/') (by decide)
  simp [isJoint, hdot, hslash]

theorem expect_eq_none (h : ¬ word <+: s) : expect word s = none := by
  rw [expect, if_neg (by simpa using h)]

theorem expect_cons_of_ne {d : Char} (h : c ≠ d) : expect (d :: word) (c :: s) = none :=
  expect_eq_none fun hstart => h (List.cons_prefix_cons.mp hstart).1.symm

theorem expect_append (word rest : List Char) : expect word (word ++ rest) = some rest := by
  rw [expect, if_pos (by simp), List.drop_left]

theorem prefix_of_prefix_append (hword : c ∉ word) (h : word <+: name ++ c :: rest) :
    word <+: name := by
  rcases List.prefix_or_prefix_of_prefix h (List.prefix_append name _) with hstart | ⟨more, rfl⟩
  · exact hstart
  · cases more with
    | nil => simp
    | cons d more =>
        have hd : d = c := (List.cons_prefix_cons.mp ((List.prefix_append_right_inj name).mp h)).1
        exact absurd (by simp [hd]) hword

namespace Marker

theorem scan_plain (hname : ∀ c ∈ name, isNameChar c = true) :
    scan .plain (name ++ '}' :: rest) = some ([name], '}' :: rest) := by
  induction name with
  | nil => rfl
  | cons c cs ih =>
      obtain ⟨hc, hcs⟩ := List.forall_mem_cons.mp hname
      rw [List.cons_append, scan, if_pos hc, ih hcs]
      rfl

/-- No word that a joint follows stands at the start of a plain name. -/
theorem skipWord_name (hname : ∀ c ∈ name, isNameChar c = true) (hword : '}' ∉ word) :
    skipWord word (name ++ '}' :: rest) = (false, name ++ '}' :: rest) := by
  rw [skipWord]
  cases hexpect : expect word (name ++ '}' :: rest) with
  | none => rfl
  | some r =>
      have hsplit := append_of_expect hexpect
      obtain ⟨more, rfl⟩ := prefix_of_prefix_append hword ⟨r, hsplit.symm⟩
      rw [List.append_assoc] at hsplit
      have hjoint : r.head?.any isJoint = false := by
        rw [← List.append_cancel_left hsplit]
        cases more with
        | nil => rfl
        | cons d more => exact isJoint_of_isNameChar (hname d (by simp))
      simp only [Option.map_some, hjoint]

theorem skipUp_of_ne (h : c ≠ '.') : skipUp (c :: s) = (0, c :: s) := by
  rw [skipUp.eq_def]
  split
  · rename_i heq
    exact absurd (List.cons.inj heq).1 h
  · rfl

theorem read_name (hne : name ≠ []) (hname : ∀ c ∈ name, isNameChar c = true) :
    read (name ++ '}' :: rest) =
      some (⟨String.ofList name, false, false, 0, [String.ofList name].filter (· ≠ "this")⟩,
        '}' :: rest) := by
  obtain ⟨c, cs, rfl⟩ := List.exists_cons_of_ne_nil hne
  obtain ⟨hc, hcs⟩ := List.forall_mem_cons.mp hname
  have hthis : skipThis (c :: cs ++ '}' :: rest) = c :: cs ++ '}' :: rest := by
    rw [skipThis, List.cons_append,
      expect_cons_of_ne (ne_of_isNameChar hc (by decide)), Option.getD_none, ← List.cons_append,
      skipWord_name hname (by decide)]
  have hscan : scan .start (c :: cs ++ '}' :: rest) = some ([c :: cs], '}' :: rest) := by
    rw [List.cons_append, scan, if_neg (ne_of_isNameChar hc (by decide)), if_pos hc,
      scan_plain hcs]
    rfl
  have hlength : (c :: cs ++ '}' :: rest).length - ('}' :: rest).length = (c :: cs).length := by
    rw [List.length_append, Nat.add_sub_cancel]
  have hat : c ≠ '@' := ne_of_isNameChar hc (by decide)
  have hup : skipUp (c :: cs ++ '}' :: rest) = (0, c :: cs ++ '}' :: rest) :=
    skipUp_of_ne (ne_of_isNameChar hc (by decide))
  rw [read, hthis, skipWord_name hname (by decide)]
  dsimp only
  split
  · rename_i heq
    exact absurd (List.cons.inj heq).1 hat
  · rw [hup, hscan, Option.map_some, hlength, List.take_left]
    rfl

end Marker

/-! ## Reading values -/

theorem Argument.readName_name (hne : name ≠ []) (hname : ∀ c ∈ name, isNameChar c = true) :
    readName (name ++ '}' :: rest) = some (String.ofList name, '}' :: rest) := by
  have hbrace : isNameChar '}' = false := by decide
  rw [readName, takeWhile_stop hname hbrace, dropWhile_stop hname hbrace]
  split
  · contradiction
  · rfl

/-- No argument begins with a closing brace. -/
theorem Argument.read_closing (depth : Nat) (rest : List Char) : read depth ('}' :: rest) = none := by
  cases depth with
  | zero => rfl
  | succ depth => rfl

theorem Argument.readAll_closing (depth limit : Nat) (rest : List Char) :
    readAll (read depth) limit ('}' :: rest) = (.empty, '}' :: rest) := by
  cases limit with
  | zero => rfl
  | succ limit =>
      have hspace : skipSpace ('}' :: rest) = '}' :: rest := rfl
      have hnamed : readNamed (read depth) ('}' :: rest) = none := rfl
      rw [readAll, hspace, hnamed, read_closing]

theorem Argument.readApplication_name (depth : Nat) (hne : name ≠ [])
    (hname : ∀ c ∈ name, isNameChar c = true) :
    readApplication (read depth) (name ++ '}' :: rest) = none := by
  rw [readApplication, readName_name hne hname]
  dsimp only [bind, Option.bind]
  rw [readAll_closing]
  rfl

/-! ## Reading slots -/

theorem Tag.readTilde_of_ne (hspace : isSpace c = false) (htilde : c ≠ '~') :
    readTilde (c :: s) = (false, c :: s) := by
  have hskip : skipSpace (c :: s) = c :: s := List.dropWhile_cons_of_neg (by simp [hspace])
  rw [readTilde, hskip]
  split
  · rename_i heq
    exact absurd (List.cons.inj heq).1 htilde
  · rfl

theorem Tag.readEnd_closing (more rest : List Char) :
    readEnd ('}' :: more) ('}' :: more ++ rest) = some (false, rest) := by
  rw [readEnd, List.cons_append, Tag.readTilde_of_ne (by decide) (by decide)]
  dsimp only
  rw [← List.cons_append, expect_append]
  rfl

theorem Tag.readMiddle_eq_none (hcaret : ¬ ['^'] <+: s) (hword : ¬ ['e', 'l', 's', 'e'] <+: s) :
    readMiddle s = none := by
  rw [readMiddle, expect_eq_none hcaret, expect_eq_none hword]
  rfl

/-- A tag that begins like none of the special ones is a value. -/
theorem Tag.readContent_of_head (h : c ∉ ['\x7b', '&', '#', '/', '*', '>']) :
    readContent (c :: s) = readValue (c :: s) := by
  simp only [List.mem_cons, List.not_mem_nil, or_false, not_or] at h
  rw [readContent.eq_def]
  split <;> simp_all

theorem Tag.readInner_of_content {content : TagContent}
    (htilde : readTilde s = (false, s)) (hmiddle : readMiddle s = none)
    (hcontent : readContent s = some (content, '}' :: '}' :: rest)) :
    readInner s = some (⟨content, false, false⟩, rest) := by
  have hend : readEnd ['}', '}'] ('}' :: '}' :: rest) = some (false, rest) :=
    readEnd_closing ['}'] rest
  simp [readInner, htilde, hmiddle, hcontent, hend]

theorem Tag.read_of_head (hbrace : c ≠ '\x7b') (hmark : c ≠ '!') :
    Tag.read ('\x7b' :: '\x7b' :: c :: s) = readInner (c :: s) := by
  rw [Tag.read, show expect ['\x7b', '\x7b'] ('\x7b' :: '\x7b' :: c :: s) = some (c :: s) from rfl,
    Option.bind_eq_bind, Option.bind_some]
  split <;> simp_all

theorem Tag.read_of_triple {t : Tag} (hbrace : c ≠ '\x7b') (h : readTriple (c :: s) = some (t, rest)) :
    Tag.read ('\x7b' :: '\x7b' :: '\x7b' :: c :: s) = some (t, rest) := by
  rw [Tag.read, show expect ['\x7b', '\x7b'] ('\x7b' :: '\x7b' :: '\x7b' :: c :: s) =
    some ('\x7b' :: c :: s) from rfl, Option.bind_eq_bind, Option.bind_some]
  split
  · rename_i heq
    simp_all
  · rename_i heq
    cases heq
    rw [h]
    rfl
  · rename_i heq
    cases heq
  · rename_i hno _
    exact absurd rfl (hno _)

namespace Slot

variable (x : Slot)

theorem toList_ne_nil : x.name.toList ≠ [] := by
  simpa using x.isPlain.1

theorem exists_cons : ∃ c cs, x.name.toList = c :: cs ∧ isNameChar c = true := by
  obtain ⟨c, cs, hname⟩ := List.exists_cons_of_ne_nil x.toList_ne_nil
  exact ⟨c, cs, hname, x.isPlain.2 c (by simp [hname])⟩

theorem readReference_name (rest : List Char) :
    Argument.readReference (x.name.toList ++ '}' :: rest) = some (.marker x.marker, '}' :: rest) := by
  have hfilter : [x.name].filter (· ≠ "this") = [x.name] := by simp [x.isFree.1]
  rw [Argument.readReference, Marker.read_name x.toList_ne_nil x.isPlain.2, String.ofList_toList,
    hfilter]
  rfl

theorem readValue_name (rest : List Char) :
    Tag.readValue (x.name.toList ++ '}' :: rest) =
      some (.value (.marker x.marker), '}' :: rest) := by
  rw [Tag.readValue, Argument.readApplication_name _ x.toList_ne_nil x.isPlain.2, readReference_name]
  rfl

theorem readTilde_name (rest : List Char) :
    Tag.readTilde (x.name.toList ++ '}' :: rest) = (false, x.name.toList ++ '}' :: rest) := by
  obtain ⟨c, cs, hname, hc⟩ := x.exists_cons
  rw [hname, List.cons_append,
    Tag.readTilde_of_ne (isSpace_of_isNameChar hc) (ne_of_isNameChar hc (by decide))]

theorem readContent_name (rest : List Char) :
    Tag.readContent (x.name.toList ++ '}' :: rest) =
      some (.value (.marker x.marker), '}' :: rest) := by
  obtain ⟨c, cs, hname, hc⟩ := x.exists_cons
  have hvalue := x.readValue_name rest
  rw [hname, List.cons_append] at hvalue ⊢
  rw [Tag.readContent_of_head, hvalue]
  simp only [List.mem_cons, List.not_mem_nil, or_false, not_or]
  refine ⟨?_, ?_, ?_, ?_, ?_, ?_⟩ <;> exact ne_of_isNameChar hc (by decide)

theorem read_double (hform : x.form = .double) (rest : List Char) :
    Tag.readInner (x.name.toList ++ '}' :: '}' :: rest) = some (x.tag, rest) := by
  refine Tag.readInner_of_content (x.readTilde_name _) (Tag.readMiddle_eq_none ?_ ?_)
    (x.readContent_name _)
  · obtain ⟨c, cs, hname, hc⟩ := x.exists_cons
    rw [hname, List.cons_append, List.cons_prefix_cons]
    exact fun h => ne_of_isNameChar hc (by decide) h.1.symm
  · exact fun h => x.isNoMiddle hform (prefix_of_prefix_append (by decide) h)

theorem read_ampersand (rest : List Char) :
    Tag.readInner ('&' :: (x.name.toList ++ '}' :: '}' :: rest)) = some (x.tag, rest) := by
  refine Tag.readInner_of_content (Tag.readTilde_of_ne (by decide) (by decide)) rfl ?_
  have hskip : skipSpace (x.name.toList ++ '}' :: '}' :: rest) =
      x.name.toList ++ '}' :: '}' :: rest := by
    obtain ⟨c, cs, hname, hc⟩ := x.exists_cons
    rw [hname]
    exact List.dropWhile_cons_of_neg (by simp [isSpace_of_isNameChar hc])
  rw [Tag.readContent, hskip, readReference_name]
  rfl

theorem read_triple (rest : List Char) :
    Tag.readTriple (x.name.toList ++ '}' :: '}' :: '}' :: rest) = some (x.tag, rest) := by
  have hend : Tag.readEnd ['}', '}', '}'] ('}' :: '}' :: '}' :: rest) = some (false, rest) :=
    Tag.readEnd_closing ['}', '}'] rest
  simp [Tag.readTriple, x.readTilde_name, x.readValue_name, hend, tag]

theorem read_written (rest : List Char) : Tag.read (x.written ++ rest) = some (x.tag, rest) := by
  obtain ⟨c, cs, hname, hc⟩ := x.exists_cons
  have hbrace : c ≠ '\x7b' := ne_of_isNameChar hc (by decide)
  rw [written]
  cases hform : x.form with
  | double =>
      have hread := x.read_double hform rest
      rw [hname, List.cons_append] at hread
      simpa [hname, hread] using
        Tag.read_of_head (s := cs ++ '}' :: '}' :: rest) hbrace (ne_of_isNameChar hc (by decide))
  | triple =>
      have hread := x.read_triple rest
      rw [hname] at hread
      simpa [hname] using Tag.read_of_triple hbrace hread
  | ampersand =>
      simpa [x.read_ampersand rest] using
        Tag.read_of_head (s := x.name.toList ++ '}' :: '}' :: rest) (by decide : '&' ≠ '\x7b') (by decide)

theorem exists_written : ∃ more, x.written = '\x7b' :: '\x7b' :: more := by
  rw [written]
  cases x.form with
  | double => exact ⟨_, rfl⟩
  | triple => exact ⟨_, rfl⟩
  | ampersand => exact ⟨_, rfl⟩

theorem readBraces_written (rest : List Char) :
    readBraces (x.written ++ rest) = some ([.tag x.tag], rest) := by
  have hfour : ¬ Tag.fourOpening.isPrefixOf (x.written ++ rest) = true := by
    obtain ⟨c, cs, hname, hc⟩ := x.exists_cons
    have hbrace : c ≠ '\x7b' := ne_of_isNameChar hc (by decide)
    rw [written]
    cases x.form <;> simp [Tag.fourOpening, hname, hbrace.symm]
  rw [readBraces, if_neg hfour, x.read_written]
  rfl

end Slot

end DemoScaffold.Template
