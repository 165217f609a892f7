import DemoScaffold.CommandLine.Command
import DemoScaffold.Proofs.Text.Spans

/-!
# Reading command lines

A setting whose value stands behind an equals sign is given that value, whatever the value looks like. So
there is a command line for every scaffold command.
-/

namespace DemoScaffold.CommandLine

variable {g : Grammar} {given after : Given} {s : Setting} {name value : List Char} {arg known : String}
  {rest : List String}

theorem splitValue_append (h : '=' ∉ name) (value : List Char) :
    splitValue (name ++ '=' :: value) = (String.ofList name, some (String.ofList value)) := by
  simp only [splitValue, takeWhile_ne h, dropWhile_ne h]

theorem readFrom_value (harg : arg.toList = '-' :: '-' :: (name ++ '=' :: value)) (hname : '=' ∉ name)
    (hs : g.settings.find? (·.name = String.ofList name) = some s)
    (hgive : given.giveValue s (String.ofList value) = .ok after) :
    g.readFrom given none false (arg :: rest) = g.readFrom after none false rest := by
  have hdashes : arg ≠ "--" := by
    rintro rfl
    simp at harg
  have hsettings : givesSettings arg = true := by
    simp [givesSettings, harg]
  have hread : g.readSettings given arg = .ok (after, none) := by
    simp only [Grammar.readSettings, harg, Grammar.readName, splitValue_append hname, hs, hgive]
    rfl
  rw [Grammar.readFrom]
  simp only [hdashes, if_false, hsettings, if_true, hread]
  rfl

theorem giveValue_path (hfree : given.value? known = none) {text : String} (htext : text ≠ "") :
    given.giveValue (pathSetting known none) text =
      .ok { given with values := (known, text) :: given.values } := by
  simp [Given.giveValue, pathSetting, isPath, hfree, htext]

/-- The command line that names a root and perhaps a configuration. -/
def scaffoldArgs (root : String) (config : Option String) : List String :=
  "scaffold" :: ("--root=" ++ root) :: (config.map ("--config=" ++ ·)).toList

theorem request_scaffold {root : String} {config : Option String} (hroot : root ≠ "")
    (hconfig : config ≠ some "") :
    request (scaffoldArgs root config) = .command 0 (.scaffold ⟨root⟩ (config.map Path.mk)) := by
  have hform : commandForms.find? (·.name = "scaffold") = some scaffoldForm := rfl
  have hfirst {rest : List String} : scaffoldForm.grammar.readFrom .nothing none false
      (("--root=" ++ root) :: rest) =
        scaffoldForm.grammar.readFrom ⟨0, [], [("root", root)], []⟩ none false rest := by
    have harg : ("--root=" ++ root).toList = '-' :: '-' :: ("root".toList ++ '=' :: root.toList) := by
      simp
    refine readFrom_value harg (by decide) (s := pathSetting "root" none) (by rfl) ?_
    rw [String.ofList_toList, giveValue_path rfl hroot]
    rfl
  have hsecond {config : String} (hconfig : config ≠ "") : scaffoldForm.grammar.readFrom
      ⟨0, [], [("root", root)], []⟩ none false ["--config=" ++ config] =
        .ok ⟨0, [], [("config", config), ("root", root)], []⟩ := by
    have harg : ("--config=" ++ config).toList =
        '-' :: '-' :: ("config".toList ++ '=' :: config.toList) := by
      simp
    rw [readFrom_value harg (by decide) (s := pathSetting "config" none) (by rfl)]
    · rfl
    · rw [String.ofList_toList, giveValue_path (by simp [Given.value?]) hconfig]
  rw [request, scaffoldArgs, requestFrom]
  simp only [hform, CommandForm.request, Grammar.read, hfirst]
  cases config with
  | none => rfl
  | some path =>
      have hpath : path ≠ "" := fun h => hconfig (congrArg some h)
      simp only [Option.map_some, Option.toList_some, hsecond hpath]
      rfl

end DemoScaffold.CommandLine
