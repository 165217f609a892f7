import DemoScaffold.Proofs.Plan
import DemoScaffold.Proofs.Template.Lines
import DemoScaffold.Proofs.Template.Mentions

/-!
# The files of a demo module

The lines of the demo templates as patterns. A few of them name the module's key, one its display name,
and all others stay as they are. So the files are known line by line, and with them what they mention of
each other.
-/

namespace DemoScaffold

open Text (IsLine unlines)

/-! ## Bindings of modules -/

namespace DemoModule

variable (m : DemoModule)

theorem get?_lower_name : m.bindings.get? "lower_name" = some m.key := by
  have hbefore : Text.before "upper_name" "lower_name" = false := by decide
  simp [bindings, Bindings.ofList, Bindings.insert, Bindings.empty, Bindings.bind, hbefore, Bindings.get?]

theorem get?_upper_name : m.bindings.get? "upper_name" = some m.display := by
  have hbefore : Text.before "upper_name" "lower_name" = false := by decide
  simp [bindings, Bindings.ofList, Bindings.insert, Bindings.empty, Bindings.bind, hbefore, Bindings.get?]

theorem isLine_key : IsLine m.key.toList := by
  constructor
  · intro hmem
    exact absurd (m.isKeyChar_of_mem _ hmem) (by decide)
  · intro hlast
    exact absurd (m.isKeyChar_of_mem _ (List.mem_of_getLast? hlast)) (by decide)

end DemoModule

/-- The line of the header that declares the display name. -/
def nameDeclaration (display : String) : String :=
  "inline constexpr std::string_view NAME = \"" ++ display ++ "\"sv;" ++ "\n"

/-! ## Lines of the templates -/

namespace Template

def keySlot : Slot :=
  ⟨.double, "lower_name", ⟨by decide, List.all_eq_true.mp (by decide +kernel)⟩, by decide +kernel,
    by decide +kernel⟩

def displaySlot : Slot :=
  ⟨.double, "upper_name", ⟨by decide, List.all_eq_true.mp (by decide +kernel)⟩, by decide +kernel,
    by decide +kernel⟩

/-- A line that stays as it is and mentions nothing. -/
def IsPlainLine (l : List Char) : Prop :=
  ¬ ['\x7b', '\x7b'] <:+: l ∧ IsLine l ∧ ¬ HasKeyword l

instance (l : List Char) : Decidable (IsPlainLine l) := inferInstanceAs (Decidable (_ ∧ _))

/-- A property of literals holds of the texts that they stand for. -/
theorem forall_toList_cons {P : List Char → Prop} {l : List Char} {ls : List String} (h : P l)
    (hls : ∀ s ∈ ls, P s.toList) : ∀ s ∈ String.ofList l :: ls, P s.toList := by
  intro s hs
  rcases List.mem_cons.mp hs with rfl | hs
  · rwa [String.toList_ofList]
  · exact hls s hs

/-- Lines that stay as they are and mention nothing. -/
def plainLines (ls : List String) (h : ∀ l ∈ ls, IsPlainLine l.toList) : List Pattern :=
  ls.pmap (fun l hl => .last ⟨l.toList, hl.1⟩) h

/-- A line of a form that mentions a text. -/
def fixedLine (f : LineForm) (s : List Char)
    (h : ¬ ['\x7b', '\x7b'] <:+: f.before ++ (s ++ f.after)) : Pattern :=
  .last ⟨f.before ++ (s ++ f.after), h⟩

/-- A line that includes the file of the key with an ending. -/
def includeLine (ending : List Char) (h : ¬ ['\x7b', '\x7b'] <:+: ending ++ LineForm.quoted.after) :
    Pattern :=
  .slot ⟨LineForm.quoted.before, by decide⟩ ⟨by decide, by decide⟩ keySlot
    (.last ⟨ending ++ LineForm.quoted.after, h⟩)

/-- A line that opens or closes the namespace of the key. -/
def namespaceLine (f : LineForm) : Pattern :=
  .slot ⟨f.before ++ "fb::demos::".toList, by cases f <;> decide +kernel⟩
    ⟨by cases f <;> decide +kernel, by cases f <;> decide +kernel⟩ keySlot
    (.last ⟨f.after, by cases f <;> decide⟩)

/-- The line that includes the file that the shaders of the key share with its source. -/
def sharedLine : Pattern :=
  .slot ⟨LineForm.angled.before ++ "buffet/demos/".toList, by decide +kernel⟩
    ⟨by decide +kernel, by decide +kernel⟩ keySlot
    (.slot ⟨['/'], by decide⟩ ⟨by decide, by decide⟩ keySlot
      (.last ⟨".hlsli".toList ++ LineForm.angled.after, by decide +kernel⟩))

/-- The line with the display name. -/
def nameLine : Pattern :=
  .slot ⟨"inline constexpr std::string_view NAME = \"".toList, by decide +kernel⟩
    ⟨by decide +kernel, by decide +kernel⟩ displaySlot (.last ⟨"\"sv;".toList, by decide +kernel⟩)

/-! ## What the lines mention -/

/-- What lines mention that name nothing but the key. -/
structure KeyedLines (key : String) (ps : List Pattern) (xs : List (LineForm × String)) : Prop where
  names : ∀ p ∈ ps, ∀ name ∈ p.names, name = "lower_name"
  isLine : ∀ p ∈ ps, IsLine (p.filled fun _ => key)
  mentioned : (ps.filterMap fun p => mention? (p.filled fun _ => key)) = xs
  inForms : ∀ p ∈ ps, HasKeyword (p.filled fun _ => key) → (mention? (p.filled fun _ => key)).isSome

namespace KeyedLines

variable {key : String} {p : Pattern} {ps qs : List Pattern} {xs ys : List (LineForm × String)}

theorem append (hp : KeyedLines key ps xs) (hq : KeyedLines key qs ys) :
    KeyedLines key (ps ++ qs) (xs ++ ys) := by
  refine ⟨fun p hmem => ?_, fun p hmem => ?_, ?_, fun p hmem => ?_⟩
  · exact (List.mem_append.mp hmem).elim (hp.names p) (hq.names p)
  · exact (List.mem_append.mp hmem).elim (hp.isLine p) (hq.isLine p)
  · rw [List.filterMap_append, hp.mentioned, hq.mentioned]
  · exact (List.mem_append.mp hmem).elim (hp.inForms p) (hq.inForms p)

theorem keyed {f : LineForm} {s : String} (hnames : ∀ name ∈ p.names, name = "lower_name")
    (hfilled : (p.filled fun _ => key) = f.before ++ (s.toList ++ f.after))
    (hline : IsLine (p.filled fun _ => key)) : KeyedLines key [p] [(f, s)] := by
  refine ⟨List.forall_mem_singleton.mpr hnames, List.forall_mem_singleton.mpr hline, ?_,
    List.forall_mem_singleton.mpr fun _ => ?_⟩
  · rw [List.filterMap_cons, hfilled, mention?_of_form, String.ofList_toList, List.filterMap_nil]
  · rw [hfilled, mention?_of_form]
    rfl

theorem plain (ls : List String) (h : ∀ l ∈ ls, IsPlainLine l.toList) :
    KeyedLines key (plainLines ls h) [] := by
  have hmem : ∀ p ∈ plainLines ls h, ∃ l ∈ ls, ∃ hl, p = .last ⟨String.toList l, hl⟩ := by
    intro p hp
    obtain ⟨l, hl, rfl⟩ := List.mem_pmap.mp hp
    exact ⟨l, hl, (h l hl).1, rfl⟩
  refine ⟨fun p hp => ?_, fun p hp => ?_, List.filterMap_eq_nil_iff.mpr fun p hp => ?_,
    fun p hp => ?_⟩ <;>
    obtain ⟨l, hl, hbraces, rfl⟩ := hmem p hp
  · exact fun name hname => absurd hname List.not_mem_nil
  · exact (h l hl).2.1
  · exact mention?_of_noKeyword (h l hl).2.2
  · exact fun hkeyword => absurd hkeyword (h l hl).2.2

theorem fixed (f : LineForm) (s : String)
    (h : ¬ ['\x7b', '\x7b'] <:+: f.before ++ (s.toList ++ f.after))
    (hline : IsLine (f.before ++ (s.toList ++ f.after))) :
    KeyedLines key [fixedLine f s.toList h] [(f, s)] :=
  keyed (p := fixedLine f s.toList h) (fun _ hname => absurd hname List.not_mem_nil) rfl hline

theorem includeFile (hkey : IsLine key.toList) (ending : String)
    (h : ¬ ['\x7b', '\x7b'] <:+: ending.toList ++ LineForm.quoted.after)
    (hline : IsLine (ending.toList ++ LineForm.quoted.after)) :
    KeyedLines key [includeLine ending.toList h] [(.quoted, key ++ ending)] := by
  refine keyed (by simp [includeLine, Pattern.names, keySlot]) ?_ ?_
  · simp [includeLine, Pattern.filled]
  · have hbefore : IsLine LineForm.quoted.before := by decide
    exact hbefore.append (hkey.append hline)

theorem «namespace» (hkey : IsLine key.toList) (f : LineForm) :
    KeyedLines key [namespaceLine f] [(f, "fb::demos::" ++ key)] := by
  refine keyed (by simp [namespaceLine, Pattern.names, keySlot]) ?_ ?_
  · simp [namespaceLine, Pattern.filled]
  · have hbefore : IsLine (f.before ++ "fb::demos::".toList) := by cases f <;> decide +kernel
    have hafter : IsLine f.after := by cases f <;> decide
    exact hbefore.append (hkey.append hafter)

theorem shared (hkey : IsLine key.toList) :
    KeyedLines key [sharedLine]
      [(.angled, "buffet/demos/" ++ key ++ "/" ++ (key ++ ".hlsli"))] := by
  refine keyed (by simp [sharedLine, Pattern.names, keySlot]) ?_ ?_
  · simp [sharedLine, Pattern.filled]
  · have hbefore : IsLine (LineForm.angled.before ++ "buffet/demos/".toList) := by decide +kernel
    have hbetween : IsLine ['/'] := by decide
    have hafter : IsLine (".hlsli".toList ++ LineForm.angled.after) := by decide +kernel
    exact hbefore.append (hkey.append (hbetween.append (hkey.append hafter)))

end KeyedLines

/-! ## The templates -/

theorem written_plainLines (ls : List String) (h : ∀ l ∈ ls, IsPlainLine l.toList) :
    (plainLines ls h).map Pattern.written = ls.map String.toList := by
  rw [plainLines, List.map_pmap]
  exact List.pmap_eq_map h

section Templates

open TemplateSet

variable {key : String}

/-- The lines of the source between those that open and close the namespace. -/
def sourceMiddle : List String := (demoSource.drop 3).dropLast

theorem isPlain_sourceMiddle : ∀ l ∈ sourceMiddle, IsPlainLine l.toList := by
  dsimp only [sourceMiddle, demoSource, List.drop, List.dropLast]
  repeat refine forall_toList_cons (by decide +kernel) ?_
  exact fun _ hmem => absurd hmem List.not_mem_nil

/-- The lines of the header between the display name and the end of the namespace. -/
def interfaceMiddle : List String := (demoInterface.drop 8).dropLast

theorem isPlain_interfaceMiddle : ∀ l ∈ interfaceMiddle, IsPlainLine l.toList := by
  dsimp only [interfaceMiddle, demoInterface, List.drop, List.dropLast]
  repeat refine forall_toList_cons (by decide +kernel) ?_
  exact fun _ hmem => absurd hmem List.not_mem_nil

/-- The lines of the shader behind its inclusions. -/
def shaderMiddle : List String := demoShaderSource.drop 3

theorem isPlain_shaderMiddle : ∀ l ∈ shaderMiddle, IsPlainLine l.toList := by
  dsimp only [shaderMiddle, demoShaderSource, List.drop]
  repeat refine forall_toList_cons (by decide +kernel) ?_
  exact fun _ hmem => absurd hmem List.not_mem_nil

/-- The lines of the shared header between those that open and close the namespace. -/
def sharedMiddle : List String := (demoShaderInterface.drop 5).dropLast.dropLast

theorem isPlain_sharedMiddle : ∀ l ∈ sharedMiddle, IsPlainLine l.toList := by
  dsimp only [sharedMiddle, demoShaderInterface, List.drop, List.dropLast]
  repeat refine forall_toList_cons (by decide +kernel) ?_
  exact fun _ hmem => absurd hmem List.not_mem_nil

def sourceLines : List Pattern :=
  [includeLine ".hpp".toList (by decide +kernel)] ++ plainLines [""] (by decide) ++
    [namespaceLine .opening] ++ plainLines sourceMiddle isPlain_sourceMiddle ++
    [namespaceLine .closing]

/-- The lines of the header above the one with the display name. -/
def interfaceAbove : List Pattern :=
  plainLines ["#pragma once", ""] (by decide +kernel) ++
    [fixedLine .quoted "../common.hpp".toList (by decide +kernel)] ++
    [includeLine ".hlsli".toList (by decide +kernel)] ++ plainLines [""] (by decide) ++
    [namespaceLine .opening] ++ plainLines [""] (by decide)

/-- The lines of the header below it. -/
def interfaceBelow : List Pattern :=
  plainLines interfaceMiddle isPlain_interfaceMiddle ++ [namespaceLine .closing]

def shaderLines : List Pattern :=
  [sharedLine] ++ [fixedLine .angled "kitchen/gpu/samplers.hlsli".toList (by decide +kernel)] ++
    [fixedLine .angled "kitchen/graphics/core.hlsli".toList (by decide +kernel)] ++
    plainLines shaderMiddle isPlain_shaderMiddle

def sharedLines : List Pattern :=
  plainLines ["#pragma once", ""] (by decide +kernel) ++
    [fixedLine .angled "kitchen/gpu/hlsl_cpp.hlsli".toList (by decide +kernel)] ++
    plainLines [""] (by decide) ++ [namespaceLine .beginMacro] ++
    plainLines sharedMiddle isPlain_sharedMiddle ++ [namespaceLine .endMacro] ++
    plainLines [""] (by decide)

theorem written_opening : (namespaceLine .opening).written =
    "namespace fb::demos::\x7b\x7blower_name\x7d\x7d \x7b".toList := rfl

theorem written_closing : (namespaceLine .closing).written =
    "\x7d // namespace fb::demos::\x7b\x7blower_name\x7d\x7d".toList := rfl

theorem written_sourceLines : sourceLines.map Pattern.written = demoSource.map String.toList := by
  have hsplit : demoSource =
      ["#include \"\x7b\x7blower_name\x7d\x7d.hpp\""] ++ [""] ++
        ["namespace fb::demos::\x7b\x7blower_name\x7d\x7d \x7b"] ++ sourceMiddle ++
        ["\x7d // namespace fb::demos::\x7b\x7blower_name\x7d\x7d"] := rfl
  have hinclude : ∀ h, (includeLine ".hpp".toList h).written =
      "#include \"\x7b\x7blower_name\x7d\x7d.hpp\"".toList := fun _ => rfl
  rw [hsplit, sourceLines]
  simp only [List.map_append, List.map_singleton, written_plainLines, hinclude, written_opening,
    written_closing]

theorem written_interfaceLines :
    (interfaceAbove ++ [nameLine] ++ interfaceBelow).map Pattern.written =
      demoInterface.map String.toList := by
  have hsplit : demoInterface =
      ["#pragma once", ""] ++ ["#include \"../common.hpp\""] ++
        ["#include \"\x7b\x7blower_name\x7d\x7d.hlsli\""] ++ [""] ++
        ["namespace fb::demos::\x7b\x7blower_name\x7d\x7d \x7b"] ++ [""] ++
        ["inline constexpr std::string_view NAME = \"\x7b\x7bupper_name\x7d\x7d\"sv;"] ++
        (interfaceMiddle ++ ["\x7d // namespace fb::demos::\x7b\x7blower_name\x7d\x7d"]) := rfl
  have hcommon : ∀ h, (fixedLine .quoted "../common.hpp".toList h).written =
      "#include \"../common.hpp\"".toList := fun _ => rfl
  have hinclude : ∀ h, (includeLine ".hlsli".toList h).written =
      "#include \"\x7b\x7blower_name\x7d\x7d.hlsli\"".toList := fun _ => rfl
  have hname : nameLine.written =
      "inline constexpr std::string_view NAME = \"\x7b\x7bupper_name\x7d\x7d\"sv;".toList := rfl
  rw [hsplit, interfaceAbove, interfaceBelow]
  simp only [List.map_append, List.map_singleton, written_plainLines, hcommon, hinclude, hname,
    written_opening, written_closing]

theorem written_shaderLines :
    shaderLines.map Pattern.written = demoShaderSource.map String.toList := by
  have hsplit : demoShaderSource =
      ["#include <buffet/demos/\x7b\x7blower_name\x7d\x7d/\x7b\x7blower_name\x7d\x7d.hlsli>"] ++
        ["#include <kitchen/gpu/samplers.hlsli>"] ++ ["#include <kitchen/graphics/core.hlsli>"] ++
        shaderMiddle := rfl
  have hshared : sharedLine.written =
      "#include <buffet/demos/\x7b\x7blower_name\x7d\x7d/\x7b\x7blower_name\x7d\x7d.hlsli>".toList := rfl
  have hsamplers : ∀ h, (fixedLine .angled "kitchen/gpu/samplers.hlsli".toList h).written =
      "#include <kitchen/gpu/samplers.hlsli>".toList := fun _ => rfl
  have hcore : ∀ h, (fixedLine .angled "kitchen/graphics/core.hlsli".toList h).written =
      "#include <kitchen/graphics/core.hlsli>".toList := fun _ => rfl
  rw [hsplit, shaderLines]
  simp only [List.map_append, List.map_singleton, written_plainLines, hshared, hsamplers, hcore]

theorem written_sharedLines :
    sharedLines.map Pattern.written = demoShaderInterface.map String.toList := by
  have hsplit : demoShaderInterface =
      ["#pragma once", ""] ++ ["#include <kitchen/gpu/hlsl_cpp.hlsli>"] ++ [""] ++
        ["FB_NAMESPACE_BEGIN(fb::demos::\x7b\x7blower_name\x7d\x7d)"] ++ sharedMiddle ++
        ["FB_NAMESPACE_END(fb::demos::\x7b\x7blower_name\x7d\x7d)"] ++ [""] := rfl
  have hcpp : ∀ h, (fixedLine .angled "kitchen/gpu/hlsl_cpp.hlsli".toList h).written =
      "#include <kitchen/gpu/hlsl_cpp.hlsli>".toList := fun _ => rfl
  have hbegin : (namespaceLine .beginMacro).written =
      "FB_NAMESPACE_BEGIN(fb::demos::\x7b\x7blower_name\x7d\x7d)".toList := rfl
  have hend : (namespaceLine .endMacro).written =
      "FB_NAMESPACE_END(fb::demos::\x7b\x7blower_name\x7d\x7d)".toList := rfl
  rw [hsplit, sharedLines]
  simp only [List.map_append, List.map_singleton, written_plainLines, hcpp, hbegin, hend]

theorem keyed_sourceLines (hkey : IsLine key.toList) :
    KeyedLines key sourceLines [(.quoted, key ++ ".hpp"), (.opening, "fb::demos::" ++ key),
      (.closing, "fb::demos::" ++ key)] :=
  ((((KeyedLines.includeFile hkey ".hpp" _ (by decide)).append (.plain _ _)).append
    (.namespace hkey .opening)).append (.plain _ _)).append (.namespace hkey .closing)

theorem keyed_interfaceAbove (hkey : IsLine key.toList) :
    KeyedLines key interfaceAbove [(.quoted, "../common.hpp"), (.quoted, key ++ ".hlsli"),
      (.opening, "fb::demos::" ++ key)] :=
  (((((KeyedLines.plain _ _).append (.fixed .quoted "../common.hpp" _ (by decide))).append
    (.includeFile hkey ".hlsli" _ (by decide))).append (.plain _ _)).append
    (.namespace hkey .opening)).append (.plain _ _)

theorem keyed_interfaceBelow (hkey : IsLine key.toList) :
    KeyedLines key interfaceBelow [(.closing, "fb::demos::" ++ key)] :=
  (KeyedLines.plain _ _).append (.namespace hkey .closing)

theorem keyed_shaderLines (hkey : IsLine key.toList) :
    KeyedLines key shaderLines [(.angled, "buffet/demos/" ++ key ++ "/" ++ (key ++ ".hlsli")),
      (.angled, "kitchen/gpu/samplers.hlsli"), (.angled, "kitchen/graphics/core.hlsli")] :=
  (((KeyedLines.shared hkey).append (.fixed .angled "kitchen/gpu/samplers.hlsli" _ (by decide))).append
    (.fixed .angled "kitchen/graphics/core.hlsli" _ (by decide))).append (.plain _ _)

theorem keyed_sharedLines (hkey : IsLine key.toList) :
    KeyedLines key sharedLines [(.angled, "kitchen/gpu/hlsl_cpp.hlsli"),
      (.beginMacro, "fb::demos::" ++ key), (.endMacro, "fb::demos::" ++ key)] :=
  ((((((KeyedLines.plain _ _).append (.fixed .angled "kitchen/gpu/hlsl_cpp.hlsli" _ (by decide))).append
    (.plain _ _)).append (.namespace hkey .beginMacro)).append (.plain _ _)).append
    (.namespace hkey .endMacro)).append (.plain _ _)

end Templates

/-! ## The files -/

/-- The text of lines that name nothing but the key. -/
def linesText (key : String) (ps : List Pattern) : String :=
  String.ofList (unlines (ps.map (Pattern.filled fun _ => key)))

variable {m : DemoModule} {key d : String} {ps above below : List Pattern} {ls : List String}
  {xs ys : List (LineForm × String)}

theorem linesText_end (hps : ps ≠ []) : ∃ s, linesText key ps = s ++ "\n" := by
  obtain ⟨front, p, rfl⟩ := (List.eq_nil_or_concat' ps).resolve_left hps
  refine ⟨linesText key front ++ String.ofList (p.filled fun _ => key), ?_⟩
  rw [← String.toList_inj]
  simp [linesText, unlines]

theorem mentioned_linesText (h : KeyedLines key ps xs) : mentioned (linesText key ps) = xs := by
  rw [linesText, mentioned_unlines, List.filterMap_map]
  · exact h.mentioned
  · simpa using h.isLine

theorem allInForms_linesText (h : KeyedLines key ps xs) : AllInForms (linesText key ps) := by
  refine allInForms_unlines ?_ ?_
  · simpa using h.isLine
  · simpa using h.inForms

theorem KeyedLines.filled_bindings (h : KeyedLines m.key ps xs) :
    ps.map (Pattern.filled fun name => (m.bindings.get? name).getD "") =
      ps.map (Pattern.filled fun _ => m.key) := by
  refine List.map_congr_left fun p hp => Pattern.filled_congr fun name hname => ?_
  rw [h.names p hp name hname, m.get?_lower_name]
  rfl

theorem KeyedLines.bound (h : KeyedLines m.key ps xs) :
    ∀ p ∈ ps, ∀ name ∈ p.names, (m.bindings.get? name).isSome := by
  intro p hp name hname
  rw [h.names p hp name hname, m.get?_lower_name]
  rfl

theorem render_keyedLines (h : KeyedLines m.key ps xs)
    (hls : ps.map Pattern.written = ls.map String.toList) (kind : TemplateKind) :
    (Template.ofBody kind (TemplateSet.ofLines ls)).render m.bindings = .ok (linesText m.key ps) := by
  rw [render_ofLines hls h.bound, h.filled_bindings, linesText]

theorem filled_nameLine (d : String) : (nameLine.filled fun _ => d) =
    "inline constexpr std::string_view NAME = \"".toList ++ (d.toList ++ "\"sv;".toList) := by
  rw [nameLine]
  simp only [Pattern.filled]

theorem append_feed_eq (s d u : String) :
    s ++ d ++ u ++ "\n" = String.ofList (unlines [s.toList ++ (d.toList ++ u.toList)]) := by
  rw [← String.toList_inj]
  simp [unlines]

theorem nameDeclaration_eq (d : String) :
    nameDeclaration d = String.ofList (unlines [nameLine.filled fun _ => d]) := by
  rw [filled_nameLine]
  exact append_feed_eq _ d _

theorem ofList_unlines_name (key d : String) (above below : List Pattern) :
    String.ofList (unlines (above.map (Pattern.filled fun _ => key) ++
      [nameLine.filled fun _ => d] ++ below.map (Pattern.filled fun _ => key))) =
      linesText key above ++ nameDeclaration d ++ linesText key below := by
  rw [nameDeclaration_eq, ← String.toList_inj]
  simp [linesText, unlines]

/-- A display name without a line feed mentions nothing, whatever it says. -/
theorem mentioned_nameDeclaration (hd : '\n' ∉ d.toList) : mentioned (nameDeclaration d) = [] := by
  have hstart : IsLine "inline constexpr std::string_view NAME = \"".toList := by decide +kernel
  have hend : IsLine "\"sv;".toList := by decide +kernel
  have hline : IsLine (nameLine.filled fun _ => d) := by
    rw [filled_nameLine]
    exact hstart.append (hend.append_of_ne_nil (by decide +kernel) hd)
  have hnone : mention? (nameLine.filled fun _ => d) = none := by
    rw [filled_nameLine]
    exact mention?_of_apart (by decide +kernel) _
  rw [nameDeclaration_eq, mentioned_unlines (List.forall_mem_singleton.mpr hline),
    List.filterMap_cons_none hnone, List.filterMap_nil]

/-- Around the display name the header mentions what its own lines mention. -/
theorem mentioned_around (ha : KeyedLines key above xs) (hb : KeyedLines key below ys)
    (hne : above ≠ []) (d : String) :
    mentioned (linesText key above ++ nameDeclaration d ++ linesText key below) =
      xs ++ mentioned (nameDeclaration d) ++ ys := by
  obtain ⟨s, hs⟩ : ∃ s, linesText key above = s ++ "\n" := linesText_end hne
  obtain ⟨u, hu⟩ : ∃ u, nameDeclaration d = u ++ "\n" := ⟨_, rfl⟩
  rw [← mentioned_linesText ha, ← mentioned_linesText hb]
  generalize linesText key below = rest
  rw [hs, hu, mentioned_append_feeds]

theorem render_interface (m : DemoModule) :
    (Template.ofBody .interface (TemplateSet.ofLines TemplateSet.demoInterface)).render m.bindings =
      .ok (linesText m.key interfaceAbove ++ nameDeclaration m.display ++
        linesText m.key interfaceBelow) := by
  have habove := keyed_interfaceAbove m.isLine_key
  have hbelow := keyed_interfaceBelow m.isLine_key
  have hbound : ∀ p ∈ interfaceAbove ++ [nameLine] ++ interfaceBelow, ∀ name ∈ p.names,
      (m.bindings.get? name).isSome := by
    intro p hp name hname
    rcases List.mem_append.mp hp with hp | hp
    · rcases List.mem_append.mp hp with hp | hp
      · exact habove.bound p hp name hname
      · obtain rfl := List.mem_singleton.mp hp
        obtain rfl : name = "upper_name" := List.mem_singleton.mp hname
        rw [m.get?_upper_name]
        rfl
    · exact hbelow.bound p hp name hname
  have hname : (nameLine.filled fun name => (m.bindings.get? name).getD "") =
      nameLine.filled fun _ => m.display := by
    refine Pattern.filled_congr fun name hname => ?_
    obtain rfl : name = "upper_name" := List.mem_singleton.mp hname
    rw [m.get?_upper_name]
    rfl
  rw [render_ofLines written_interfaceLines hbound, List.map_append, List.map_append,
    List.map_singleton, habove.filled_bindings, hbelow.filled_bindings, hname, ofList_unlines_name]

theorem render_demo (m : DemoModule) :
    TemplateSet.demo.templates.map (fun x => (x.kind, x.render m.bindings)) =
      [(.source, .ok (linesText m.key sourceLines)),
        (.interface,
          .ok (linesText m.key interfaceAbove ++ nameDeclaration m.display ++
        linesText m.key interfaceBelow)),
        (.shaderSource, .ok (linesText m.key shaderLines)),
        (.shaderInterface, .ok (linesText m.key sharedLines))] := by
  have hkey := m.isLine_key
  rw [← render_keyedLines (keyed_sourceLines hkey) written_sourceLines .source, ← render_interface,
    ← render_keyedLines (keyed_shaderLines hkey) written_shaderLines .shaderSource,
    ← render_keyedLines (keyed_sharedLines hkey) written_sharedLines .shaderInterface]
  rfl

end Template

/-- The file that a plan has for a kind of template. -/
def Plan.nameOf? (p : Plan) (kind : TemplateKind) : Option String :=
  (p.files.find? (·.template.kind = kind)).map PlannedFile.fileName

/-- The files of a module agree with each other and with its plan: they include each other under the
names and directories of the plan and mention no namespace but that of the key, and no other line speaks
of either. Of the files only the header depends on the display name, which stands in it as it is, on a
line of its own. A display name with line feeds brings lines of its own; without them it mentions
nothing, whatever it says. -/
theorem demo_files_agree (root : Path) (m : DemoModule) :
    ∃ interface shared source above below shader sharedText : String,
      (Plan.ofModule root m .demo).nameOf? .interface = some interface ∧
      (Plan.ofModule root m .demo).nameOf? .shaderInterface = some shared ∧
      (Plan.ofModule root m .demo).directory.fileName? = some m.key ∧
      (∀ n : DemoModule, n.key = m.key →
        TemplateSet.demo.templates.map (fun x => (x.kind, x.render n.bindings)) =
          [(.source, .ok source), (.interface, .ok (above ++ nameDeclaration n.display ++ below)),
            (.shaderSource, .ok shader), (.shaderInterface, .ok sharedText)]) ∧
      mentioned source = [(.quoted, interface), (.opening, "fb::demos::" ++ m.key),
        (.closing, "fb::demos::" ++ m.key)] ∧
      (∃ s, above = s ++ "\n") ∧
      (∀ d : String, mentioned (above ++ nameDeclaration d ++ below) =
        [(.quoted, "../common.hpp"), (.quoted, shared), (.opening, "fb::demos::" ++ m.key)] ++
          mentioned (nameDeclaration d) ++ [(.closing, "fb::demos::" ++ m.key)]) ∧
      (∀ d : String, '\n' ∉ d.toList → mentioned (nameDeclaration d) = []) ∧
      mentioned shader = [(.angled, "buffet/demos/" ++ m.key ++ "/" ++ shared),
        (.angled, "kitchen/gpu/samplers.hlsli"), (.angled, "kitchen/graphics/core.hlsli")] ∧
      mentioned sharedText = [(.angled, "kitchen/gpu/hlsl_cpp.hlsli"),
        (.beginMacro, "fb::demos::" ++ m.key), (.endMacro, "fb::demos::" ++ m.key)] ∧
      ∀ s ∈ [source, above, below, shader, sharedText], AllInForms s := by
  have hkey := m.isLine_key
  have hinterface : (Plan.ofModule root m .demo).nameOf? .interface = some (m.key ++ ".hpp") := by
    change some (m.key ++ "." ++ "hpp") = _
    rw [String.append_assoc]
    rfl
  have hshared : (Plan.ofModule root m .demo).nameOf? .shaderInterface = some (m.key ++ ".hlsli") := by
    change some (m.key ++ "." ++ "hlsli") = _
    rw [String.append_assoc]
    rfl
  have hne : Template.interfaceAbove ≠ [] := List.cons_ne_nil _ _
  have hsource := Template.keyed_sourceLines hkey
  have habove := Template.keyed_interfaceAbove hkey
  have hbelow := Template.keyed_interfaceBelow hkey
  have hshader := Template.keyed_shaderLines hkey
  have hsharedText := Template.keyed_sharedLines hkey
  refine ⟨m.key ++ ".hpp", m.key ++ ".hlsli", _, _, _, _, _, hinterface, hshared,
    Plan.fileName?_directory root m .demo, fun n hn => hn ▸ Template.render_demo n,
    Template.mentioned_linesText hsource, Template.linesText_end hne,
    fun d => Template.mentioned_around habove hbelow hne d,
    fun d hd => Template.mentioned_nameDeclaration hd, Template.mentioned_linesText hshader,
    Template.mentioned_linesText hsharedText, ?_⟩
  simp only [List.forall_mem_cons]
  exact ⟨Template.allInForms_linesText hsource, Template.allInForms_linesText habove,
    Template.allInForms_linesText hbelow, Template.allInForms_linesText hshader,
    Template.allInForms_linesText hsharedText, fun _ h => absurd h List.not_mem_nil⟩

/-- A module whose display name ends the string that it stands in and goes on with lines of its own. -/
def restlessFog : DemoModule where
  key := "fog"
  display := "Fog\"sv;\nnamespace elsewhere \x7b\n\x7d // namespace elsewhere\nauto name = \"Fog"
  valid := by decide +kernel

/-- With line feeds in its display name a header can open another namespace than that of its key. -/
theorem header_opens_elsewhere :
    ∃ header : String,
      (TemplateKind.interface, Except.ok header) ∈
        TemplateSet.demo.templates.map (fun x => (x.kind, x.render restlessFog.bindings)) ∧
      (LineForm.opening, "elsewhere") ∈ mentioned header ∧
      (LineForm.closing, "elsewhere") ∈ mentioned header ∧
      "elsewhere" ≠ "fb::demos::" ++ restlessFog.key := by
  have hkey := restlessFog.isLine_key
  have hname : mentioned (nameDeclaration restlessFog.display) =
      [(.opening, "elsewhere"), (.closing, "elsewhere")] := by decide +kernel
  have hheader := Template.mentioned_around (Template.keyed_interfaceAbove hkey)
    (Template.keyed_interfaceBelow hkey) (List.cons_ne_nil _ _) restlessFog.display
  rw [hname] at hheader
  refine ⟨Template.linesText restlessFog.key Template.interfaceAbove ++
    nameDeclaration restlessFog.display ++
    Template.linesText restlessFog.key Template.interfaceBelow, ?_, ?_, ?_, by decide +kernel⟩
  · rw [Template.render_demo]
    exact List.mem_cons_of_mem _ List.mem_cons_self
  · rw [hheader]
    exact List.mem_append_left _ (List.mem_append_right _ List.mem_cons_self)
  · rw [hheader]
    exact List.mem_append_left _
      (List.mem_append_right _ (List.mem_cons_of_mem _ List.mem_cons_self))

end DemoScaffold
