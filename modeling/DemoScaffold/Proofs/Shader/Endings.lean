import DemoScaffold.Proofs.Shader.Locality
import DemoScaffold.Proofs.Shader.Report

/-!
# Line endings of scanned texts

A text is scanned piece by piece between its line feeds, and a carriage return at the end of a piece is
trimmed. So it makes no difference how the lines are ended (`scanText_withReturns`), and what is flagged is
flagged again (`scanText_again`).
-/

namespace DemoScaffold

namespace Text

/-- What ends a line. -/
inductive Ending where
  | feed
  | returnFeed

def Ending.chars : Ending → List Char
  | .feed => ['\n']
  | .returnFeed => ['\r', '\n']

/-- The lines with an ending between them, and behind the last one too if the text is `closed`. -/
def Ending.join (e : Ending) (closed : Bool) (ls : List (List Char)) : List Char :=
  e.chars.intercalate ls ++ (if closed then e.chars else [])

/-- The text with a carriage return in front of each of its line feeds. -/
def withReturns (s : List Char) : List Char :=
  s.flatMap fun c => if c = '\n' then ['\r', '\n'] else [c]

variable {l : List Char} {ls : List (List Char)}

/-- Induction on the pieces of a text between its line feeds. -/
@[elab_as_elim]
theorem piecewise {P : List Char → Prop} (s : List Char) (last : ∀ l, '\n' ∉ l → P l)
    (feed : ∀ l rest, '\n' ∉ l → P rest → P (l ++ '\n' :: rest)) : P s := by
  by_cases h : '\n' ∈ s
  · obtain ⟨l, rest, hsplit, hl⟩ := List.eq_append_cons_of_mem h
    rw [hsplit]
    exact feed l rest hl (piecewise rest last feed)
  · exact last s h
termination_by s.length
decreasing_by
  rw [hsplit, List.length_append, List.length_cons]
  omega

theorem withReturns_append (s t : List Char) : withReturns (s ++ t) = withReturns s ++ withReturns t := by
  simp [withReturns]

theorem withReturns_feed (rest : List Char) :
    withReturns ('\n' :: rest) = '\r' :: '\n' :: withReturns rest := by
  simp [withReturns]

theorem withReturns_of_notMem (h : '\n' ∉ l) : withReturns l = l := by
  induction l with
  | nil => rfl
  | cons c more ih =>
      obtain ⟨hc, hmore⟩ := not_or.mp (mt List.mem_cons.mpr h)
      have htail : withReturns more = more := ih hmore
      simp only [withReturns, List.flatMap_cons] at htail ⊢
      rw [if_neg (Ne.symm hc), htail]
      rfl

theorem withReturns_intercalate (h : ∀ l ∈ ls, '\n' ∉ l) :
    withReturns (['\n'].intercalate ls) = ['\r', '\n'].intercalate ls := by
  induction ls with
  | nil => rfl
  | cons l rest ih =>
      obtain ⟨hl, hrest⟩ := List.forall_mem_cons.mp h
      cases rest with
      | nil => simpa using withReturns_of_notMem hl
      | cons next more =>
          rw [List.intercalate_cons_cons, List.intercalate_cons_cons, withReturns_append,
            withReturns_append, withReturns_of_notMem hl, ih hrest]
          rfl

theorem join_returnFeed (closed : Bool) (h : ∀ l ∈ ls, '\n' ∉ l) :
    Ending.returnFeed.join closed ls = withReturns (Ending.feed.join closed ls) := by
  cases closed with
  | false => simp [Ending.join, Ending.chars, withReturns_intercalate h]
  | true =>
      have hend : withReturns ['\n'] = ['\r', '\n'] := withReturns_feed []
      simp [Ending.join, Ending.chars, withReturns_append, withReturns_intercalate h, hend]

end Text

variable {ls : List (List Char)}

/-- That lines end in a carriage return and a line feed makes no difference. -/
theorem scanText_withReturns (s : List Char) : scanText (Text.withReturns s) = scanText s := by
  induction s using Text.piecewise with
  | last l hl => rw [Text.withReturns_of_notMem hl]
  | feed l rest hl ih =>
      have hreturn : '\n' ∉ l ++ ['\r'] := by simpa using hl
      have hpiece : scanText (l ++ ['\r']) = scanText l := by
        rw [scanText_of_notMem hreturn, scanText_of_notMem hl, Text.trim_concat (by decide)]
      have hsplit : Text.withReturns (l ++ '\n' :: rest) = (l ++ ['\r']) ++ '\n' :: Text.withReturns rest := by
        simp [Text.withReturns_append, Text.withReturns_of_notMem hl, Text.withReturns_feed]
      rw [hsplit, scanText_append_feed, scanText_append_feed, hpiece, ih]

/-! ## Flagged lines -/

theorem trim_of_mem_scanText {s line : List Char} (h : line ∈ scanText s) : Text.trim line = line := by
  obtain ⟨full, -, rfl⟩ := List.mem_map.mp (List.mem_of_mem_filter h)
  exact Text.trim_trim full

theorem scanText_of_mem_scanText {s line : List Char} (h : line ∈ scanText s) : scanText line = [line] := by
  have hflagged : isFlagged line = true := List.of_mem_filter h
  rw [scanText_of_notMem (feed_notMem_of_mem_scanText h), trim_of_mem_scanText h]
  simp [hflagged]

theorem scanText_intercalate (h : ∀ line ∈ ls, scanText line = [line]) :
    scanText (['\n'].intercalate ls) = ls := by
  induction ls with
  | nil => rfl
  | cons line rest ih =>
      obtain ⟨hline, hrest⟩ := List.forall_mem_cons.mp h
      cases rest with
      | nil => simpa using hline
      | cons next more =>
          rw [List.intercalate_cons_cons, List.append_assoc, List.singleton_append, scanText_append_feed,
            hline, ih hrest]
          rfl

/-- The flagged lines of a text are those of the text that they make, whichever way they are ended and
whether the last one is or not. -/
theorem scanText_join (s : List Char) (e : Text.Ending) (closed : Bool) :
    scanText (e.join closed (scanText s)) = scanText s := by
  have hfeed : scanText (Text.Ending.feed.join closed (scanText s)) = scanText s := by
    have hlines := scanText_intercalate fun line hline => scanText_of_mem_scanText (s := s) hline
    cases closed with
    | false => simpa [Text.Ending.join, Text.Ending.chars] using hlines
    | true => simpa [Text.Ending.join, Text.Ending.chars, scanText_concat_feed] using hlines
  cases e with
  | feed => exact hfeed
  | returnFeed =>
      rw [Text.join_returnFeed closed fun line hline => feed_notMem_of_mem_scanText hline,
        scanText_withReturns, hfeed]

/-- Scanning what is flagged flags it again, and all texts are scanned alike with either line ending. -/
theorem scanText_again (s : List Char) :
    (∀ (e : Text.Ending) (closed : Bool), scanText (e.join closed (scanText s)) = scanText s) ∧
      scanText (Text.withReturns s) = scanText s :=
  ⟨scanText_join s, scanText_withReturns s⟩

end DemoScaffold
