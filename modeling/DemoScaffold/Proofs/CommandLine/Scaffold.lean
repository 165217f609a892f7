import DemoScaffold.CommandLine.Run
import DemoScaffold.Proofs.CommandLine.Arguments
import DemoScaffold.Proofs.Config
import DemoScaffold.Proofs.DemoModule
import DemoScaffold.Proofs.Run.Complete
import DemoScaffold.Proofs.Template.Demo

/-!
# Scaffolding from the command line

A scaffold command ends in one of three ways: what it was asked for is not in order and nothing has
happened, or a file could not be written, or everything is there. Its exit code tells the last from the
other two.
-/

namespace DemoScaffold

namespace CommandLine

variable {t u v : FileTree} {root : Path} {config : Option Path} {c : Config}
  {modules : List DemoModule} {clock : Nat → String} {args : List String} {verbosity : Nat}

/-! ## What is asked for -/

/-- The configuration that a command works with. -/
def chosenConfig (t : FileTree) : Option Path → Except ToolError Config
  | none => .ok .standard
  | some path => (Config.load (m := StateM FileTree) path t).1

/-- What a scaffold command is asked for is in order: its configuration is the standard one or can be
loaded, its entries are those of modules, and no key repeats. -/
structure Asked (t : FileTree) (config : Option Path) (c : Config) (modules : List DemoModule) :
    Prop where
  loaded : chosenConfig t config = .ok c
  entries : modules.map DemoModule.entry = c.modules
  distinct : (modules.map DemoModule.key).Nodup

/-- The paths of the files of a module. -/
def modulePaths (root : Path) (c : Config) (m : DemoModule) : List Path :=
  TemplateSet.demo.templates.map fun x =>
    ((root.join c.baseDir).join ⟨m.key⟩).join ⟨m.key ++ "." ++ x.suffix⟩

/-- What is printed before the configuration is looked at. -/
def announcement : Option Path → List Line
  | none => Line.header "fbgen scaffold"
  | some path => Line.header "fbgen scaffold" ++ [.log .info ("loading module list from " ++ path.text)]

def progress (root : Path) (c : Config) (total : Nat) : List Line := [
  .value "Output" (root.join c.baseDir).text,
  .value "Modules" (digits total),
  .plain "[1/1] Rendering and writing templates..."]

/-- Whether a line is there for debugging only. -/
def Line.isDebug : Line → Bool
  | .log .debug _ => true
  | _ => false

/-- The lines that are not there for debugging only. -/
def withoutDebug (lines : List Line) : List Line :=
  lines.filter fun line => !line.isDebug

/-- What a scaffold command prints if everything has been written, apart from the lines for debugging. -/
def completeLines (root : Path) (config : Option Path) (c : Config) (modules : List DemoModule) :
    List Line :=
  announcement config ++ progress root c modules.length ++
    (modules.map fun m => .log .info
      ("scaffolded " ++ m.shown ++ " in " ++ ((root.join c.baseDir).join ⟨m.key⟩).text)) ++
    ((modules.flatMap (modulePaths root c)).map fun p => .plain ((p.relativeTo? root).getD p).text) ++
    [.success ("Scaffolded " ++ digits modules.length ++ " modules (" ++
      digits (4 * modules.length) ++ " files)")]

/-! ## Steps of the command -/

theorem load_eq (p : Path) (t : FileTree) :
    Config.load (m := StateM FileTree) p t = (chosenConfig t (some p), t) := by
  simp only [chosenConfig, Config.load, bind, StateT.bind, Disk.fileBytes]
  cases t.fileBytes p <;> rfl

theorem scaffold_eq (root : Path) (config : Option Path) (t : FileTree) :
    scaffold (m := StateM FileTree) root config t =
      match chosenConfig t config with
      | .error e => (⟨announcement config, some (.tool e)⟩, t)
      | .ok c => scaffoldConfig (m := StateM FileTree) root c (announcement config) t := by
  cases config with
  | none => rfl
  | some path =>
      simp only [scaffold, bind, StateT.bind, load_eq]
      cases chosenConfig t (some path) <;> rfl

theorem scaffoldConfig_of_error {e : ToolError} (h : c.toModules = .error e) (before : List Line) :
    scaffoldConfig (m := StateM FileTree) root c before t = (⟨before, some (.tool e)⟩, t) := by
  simp only [scaffoldConfig, h]
  rfl

theorem scaffoldConfig_of_ok (h : c.toModules = .ok modules) (before : List Line) :
    scaffoldConfig (m := StateM FileTree) root c before t =
      match t.run (root.join c.baseDir) modules .demo with
      | (.error e, u) => (⟨before ++ progress root c modules.length, some (.tool e)⟩, u)
      | (.ok report, u) =>
        (⟨before ++ progress root c modules.length ++
            (reportPrinted root modules.length report).lines,
          (reportPrinted root modules.length report).error⟩, u) := by
  simp only [scaffoldConfig, h, bind, StateT.bind, FileTree.run, Config.outputDir]
  rcases DemoScaffold.run (m := StateM FileTree) (root.join c.baseDir) modules .demo t with
    ⟨e | report, u⟩ <;> rfl

theorem run_scaffold (h : request args = .command verbosity (.scaffold root config)) (clock : Nat → String)
    (t : FileTree) :
    run (m := StateM FileTree) clock args t =
      match scaffold (m := StateM FileTree) root config t with
      | (printed, u) =>
        match printed.error with
        | none => (.done (printed.output clock verbosity), u)
        | some e => (.failed (printed.output clock verbosity) e.shown, u) := by
  simp only [run, h, Command.perform, bind, StateT.bind]
  rcases scaffold (m := StateM FileTree) root config t with ⟨⟨lines, _ | e⟩, u⟩ <;> rfl

/-! ## How the command ends -/

theorem exists_render_demo (m : DemoModule) :
    ∀ x ∈ TemplateSet.demo.templates, ∃ s, x.render m.bindings = .ok s := by
  intro x hx
  have hmem := List.mem_map_of_mem (f := fun x : Template => (x.kind, x.render m.bindings)) hx
  rw [Template.render_demo] at hmem
  simp only [List.mem_cons, Prod.mk.injEq, List.not_mem_nil, or_false] at hmem
  rcases hmem with ⟨-, h⟩ | ⟨-, h⟩ | ⟨-, h⟩ | ⟨-, h⟩ <;> exact ⟨_, h⟩

theorem paths_demo (root : Path) (c : Config) (m : DemoModule) :
    (Plan.ofModule (root.join c.baseDir) m .demo).paths = modulePaths root c m := by
  simp [Plan.paths, Plan.ofModule, Plan.path, modulePaths]

theorem length_modulePaths (root : Path) (c : Config) (modules : List DemoModule) :
    (modules.flatMap (modulePaths root c)).length = 4 * modules.length := by
  induction modules with
  | nil => rfl
  | cons m rest ih =>
      have hfour : (modulePaths root c m).length = 4 := rfl
      rw [List.flatMap_cons, List.length_append, ih, hfour, List.length_cons]
      omega

theorem withoutDebug_append (xs ys : List Line) : withoutDebug (xs ++ ys) = withoutDebug xs ++ withoutDebug ys :=
  List.filter_append xs ys

theorem withoutDebug_map_plain (text : Path → String) (paths : List Path) :
    withoutDebug (paths.map fun p => .plain (text p)) = paths.map fun p => .plain (text p) :=
  List.filter_eq_self.mpr (List.forall_mem_map.mpr fun _ _ => rfl)

theorem withoutDebug_outcomeLines (o : Outcome) : withoutDebug (outcomeLines o) = [outcomeLine o] := by
  have hwritten : withoutDebug (o.written.map writtenLine) = [] :=
    List.filter_eq_nil_iff.mpr (List.forall_mem_map.mpr fun f _ => by simp [writtenLine, Line.isDebug])
  rw [outcomeLines, withoutDebug_append, hwritten, outcomeLine]
  cases o.failure <;> rfl

/-- What is logged for modules that have been written. -/
theorem withoutDebug_outcomes {base : Path} {outcomes : List Outcome}
    (h : List.Forall₂ (Outcome.IsComplete base .demo) modules outcomes) :
    withoutDebug (outcomes.flatMap outcomeLines) = modules.map fun m => .log .info
      ("scaffolded " ++ m.shown ++ " in " ++ (base.join ⟨m.key⟩).text) := by
  induction h with
  | nil => rfl
  | cons ho _ ih =>
      rw [List.flatMap_cons, withoutDebug_append, withoutDebug_outcomeLines, ih, outcomeLine, ho.failure,
        ho.module, ho.directory]
      rfl

/-- The printed report of a run whose writes all succeed. -/
theorem reportPrinted_complete (before : List Line) (report : Report)
    (hpaths : report.manifest.paths = modules.flatMap (modulePaths root c))
    (houtcomes : List.Forall₂ (Outcome.IsComplete (root.join c.baseDir) .demo) modules report.outcomes) :
    withoutDebug (before ++ (reportPrinted root modules.length report).lines) =
        withoutDebug before ++ (modules.map fun m => .log .info
          ("scaffolded " ++ m.shown ++ " in " ++ ((root.join c.baseDir).join ⟨m.key⟩).text)) ++
        ((modules.flatMap (modulePaths root c)).map fun p =>
          .plain ((p.relativeTo? root).getD p).text) ++
        [.success ("Scaffolded " ++ digits modules.length ++ " modules (" ++
          digits (4 * modules.length) ++ " files)")] ∧
      (reportPrinted root modules.length report).error = none := by
  have hfailures := failures_of_outcomes houtcomes
  have hsize : report.manifest.size = 4 * modules.length := by
    rw [Manifest.size, hpaths, length_modulePaths]
  simp only [reportPrinted, hfailures, hsize, withoutDebug_append, withoutDebug_outcomes houtcomes,
    Manifest.relativeTo, hpaths, List.map_map, Function.comp_def, withoutDebug_map_plain, List.append_assoc]
  exact ⟨rfl, trivial⟩

theorem reportPrinted_incomplete {report : Report} (h : report.failures ≠ []) (root : Path)
    (total : Nat) : ∃ e, (reportPrinted root total report).error = some e := by
  cases hfailures : report.failures with
  | nil => exact absurd hfailures h
  | cons failure rest =>
      exact ⟨.incomplete (failure :: rest).length total, by simp only [reportPrinted, hfailures]⟩

/-- How a scaffold command ends. -/
inductive ScaffoldEnds (t : FileTree) (root : Path) (config : Option Path) :
    Printed → FileTree → Prop where
  | complete {c : Config} {modules : List DemoModule} {u : FileTree}
      {lines : List Line} (hasked : Asked t config c modules)
      (hwritten : AllWritten (root.join c.baseDir) .demo t modules u)
      (hlines : withoutDebug lines = completeLines root config c modules) :
      ScaffoldEnds t root config ⟨lines, none⟩ u
  | incomplete {c : Config} {modules : List DemoModule} {u : FileTree} {lines : List Line}
      {e : CommandError} (hasked : Asked t config c modules)
      (hfailed : ∀ v, ¬ AllWritten (root.join c.baseDir) .demo t modules v) :
      ScaffoldEnds t root config ⟨lines, some e⟩ u
  | notAsked {lines : List Line} {e : CommandError} (hasked : ∀ c modules, ¬ Asked t config c modules) :
      ScaffoldEnds t root config ⟨lines, some e⟩ t

theorem asked_iff {c' : Config} (h : chosenConfig t config = .ok c) :
    Asked t config c' modules ↔
      c' = c ∧ c.toModules = .ok modules ∧ firstRepeat? (modules.map DemoModule.key) = none := by
  rw [Config.toModules_eq_ok_iff, firstRepeat?_eq_none_iff]
  constructor
  · intro hasked
    obtain rfl : c' = c := Except.ok.inj (hasked.loaded.symm.trans h)
    exact ⟨rfl, hasked.entries, hasked.distinct⟩
  · rintro ⟨rfl, hentries, hdistinct⟩
    exact ⟨h, hentries, hdistinct⟩

theorem Asked.unique {c' : Config} {modules' : List DemoModule} (h : Asked t config c modules)
    (h' : Asked t config c' modules') : c' = c ∧ modules' = modules := by
  obtain ⟨rfl, hmodules, -⟩ := (asked_iff h.loaded).mp h'
  rw [Config.toModules_eq_ok_iff.mpr h.entries] at hmodules
  exact ⟨rfl, (Except.ok.inj hmodules).symm⟩

theorem ends_of_asked (hasked : Asked t config c modules) (root : Path) :
    ScaffoldEnds t root config
      (scaffoldConfig (m := StateM FileTree) root c (announcement config) t).1
      (scaffoldConfig (m := StateM FileTree) root c (announcement config) t).2 := by
  obtain ⟨report, u, hrun⟩ := FileTree.exists_runModules t (root.join c.baseDir) .empty
    fun m (_ : m ∈ modules) => exists_render_demo m
  simp only [scaffoldConfig_of_ok (Config.toModules_eq_ok_iff.mpr hasked.entries),
    FileTree.run_of_nodup hasked.distinct, hrun]
  by_cases hnone : report.failures = []
  · have hwritten := allWritten_of_failures hrun hnone
    obtain ⟨hpaths, houtcomes⟩ := hwritten.report_eq hrun
    simp only [paths_demo] at hpaths
    obtain ⟨hlines, herror⟩ := reportPrinted_complete
      (announcement config ++ progress root c modules.length) report hpaths houtcomes
    have hbefore : withoutDebug (announcement config ++ progress root c modules.length) =
        announcement config ++ progress root c modules.length := by
      cases config <;> rfl
    rw [hbefore] at hlines
    rw [herror]
    exact .complete hasked hwritten hlines
  · obtain ⟨e, herror⟩ := reportPrinted_incomplete hnone root modules.length
    rw [herror]
    exact .incomplete hasked fun v hwritten =>
      hnone (failures_of_outcomes (hwritten.report_eq hrun).2)

theorem scaffold_ends (t : FileTree) (root : Path) (config : Option Path) :
    ScaffoldEnds t root config (scaffold (m := StateM FileTree) root config t).1
      (scaffold (m := StateM FileTree) root config t).2 := by
  rw [scaffold_eq]
  cases hchosen : chosenConfig t config with
  | error e =>
      refine .notAsked fun c modules hasked => ?_
      cases hchosen.symm.trans hasked.loaded
  | ok c =>
      cases hmodules : c.toModules with
      | error e =>
          simp only [scaffoldConfig_of_error hmodules]
          refine .notAsked fun c' modules hasked => ?_
          obtain ⟨-, hsame, -⟩ := (asked_iff hchosen).mp hasked
          cases hmodules.symm.trans hsame
      | ok modules =>
          cases hrepeat : firstRepeat? (modules.map DemoModule.key) with
          | some key =>
              simp only [scaffoldConfig_of_ok hmodules, FileTree.run_of_repeat hrepeat]
              refine .notAsked fun c' modules' hasked => ?_
              obtain ⟨-, hsame, hnone⟩ := (asked_iff hchosen).mp hasked
              cases hmodules.symm.trans hsame
              cases hrepeat.symm.trans hnone
          | none => exact ends_of_asked ((asked_iff hchosen).mpr ⟨rfl, hmodules, hrepeat⟩) root

theorem Asked.not_writeFails_iff (h : Asked t config c modules) :
    ¬ WriteFails (root.join c.baseDir) .demo t modules ↔
      ∃ u, AllWritten (root.join c.baseDir) .demo t modules u :=
  DemoScaffold.not_writeFails_iff h.distinct fun m _ => exists_render_demo m

theorem find_demo (hkeys : (modules.map DemoModule.key).Nodup) {base : Path}
    (h : AllWritten base .demo t modules u) {m : DemoModule} (hm : m ∈ modules) {x : Template}
    (hx : x ∈ TemplateSet.demo.templates) :
    ∃ s, x.render m.bindings = .ok s ∧
      u.find ((base.join ⟨m.key⟩).join ⟨m.key ++ "." ++ x.suffix⟩) =
        .ok (.file (Text.Utf8.encode s.toList)) := by
  obtain ⟨outcomes, hcomplete, hrun⟩ := h.runModules .empty
  rw [← FileTree.run_of_nodup hkeys] at hrun
  exact find_of_complete (by decide) (by decide) hrun (failures_of_outcomes hcomplete) hm hx

/-! ## The exit code -/

theorem code_done (output : String) : (Ending.done output).code ≠ 1 := by
  simp [Ending.code]

theorem code_failed (output error : String) : (Ending.failed output error).code ≠ 0 := by
  simp [Ending.code]

/-- The exit code of a scaffold command is 0 exactly if what it is asked for is in order and no write
fails. Then all files of all modules are there with their renderings, and their paths and numbers are
printed; what else is printed is there for debugging only. Otherwise it is 1, and unless a write has failed
nothing has changed. -/
theorem scaffold_exit_code (h : request args = .command verbosity (.scaffold root config))
    (clock : Nat → String) (t : FileTree) :
    ∃ ending u, run (m := StateM FileTree) clock args t = (ending, u) ∧
      (ending.code = 0 ∨ ending.code = 1) ∧
      (ending.code = 0 ↔ ∃ c modules, Asked t config c modules ∧
        ¬ WriteFails (root.join c.baseDir) .demo t modules) ∧
      (∀ c modules, Asked t config c modules → ending.code = 0 →
        (∃ lines, ending = .done (Printed.output ⟨lines, none⟩ clock verbosity) ∧
          withoutDebug lines = completeLines root config c modules) ∧
        ∀ m ∈ modules, ∀ x ∈ TemplateSet.demo.templates, ∃ s, x.render m.bindings = .ok s ∧
          u.find (((root.join c.baseDir).join ⟨m.key⟩).join ⟨m.key ++ "." ++ x.suffix⟩) =
            .ok (.file (Text.Utf8.encode s.toList))) ∧
      (ending.code = 1 → u = t ∨ ∃ c modules, Asked t config c modules ∧
        WriteFails (root.join c.baseDir) .demo t modules) := by
  rw [run_scaffold h]
  have hends := scaffold_ends t root config
  generalize scaffold (m := StateM FileTree) root config t = result at hends
  obtain ⟨printed, u⟩ := result
  cases hends with
  | complete hasked hwritten hlines =>
      refine ⟨_, u, rfl, .inl rfl, ?_, ?_, fun hcode => absurd hcode (code_done _)⟩
      · exact iff_of_true rfl ⟨_, _, hasked, hasked.not_writeFails_iff.mpr ⟨u, hwritten⟩⟩
      · intro c' modules' hasked' _
        obtain ⟨rfl, rfl⟩ := hasked.unique hasked'
        exact ⟨⟨_, rfl, hlines⟩, fun m hm x hx => find_demo hasked.distinct hwritten hm hx⟩
  | @incomplete c modules _ _ _ hasked hfailed =>
      have hfails : WriteFails (root.join c.baseDir) .demo t modules := by
        by_contra hnone
        obtain ⟨v, hwritten⟩ := hasked.not_writeFails_iff.mp hnone
        exact hfailed v hwritten
      refine ⟨_, u, rfl, .inr rfl, ?_, fun _ _ _ hcode => absurd hcode (code_failed _ _),
        fun _ => .inr ⟨c, modules, hasked, hfails⟩⟩
      refine iff_of_false (code_failed _ _) ?_
      rintro ⟨c', modules', hasked', hnone⟩
      obtain ⟨rfl, rfl⟩ := hasked.unique hasked'
      exact hnone hfails
  | notAsked hasked =>
      refine ⟨_, u, rfl, .inr rfl, ?_, fun _ _ _ hcode => absurd hcode (code_failed _ _), fun _ => .inl rfl⟩
      refine iff_of_false (code_failed _ _) ?_
      rintro ⟨c, modules, hasked', -⟩
      exact hasked c modules hasked'

/-! ## A small scaffold -/

def fog : DemoModule := ⟨"fog", "Fog", by decide⟩

def fogConfig : Config := ⟨⟨"demos"⟩, [⟨"fog", "Fog"⟩]⟩

/-- A tree in which there is only the file of a configuration. -/
def fogTree : FileTree :=
  FileTree.empty.set [] "list.json" (.file (Text.Utf8.encode fogConfig.written))

theorem asked_fog : Asked fogTree (some ⟨"list.json"⟩) fogConfig [fog] := by
  have hset : FileTree.empty.CanSet [] "list.json" (.file (Text.Utf8.encode fogConfig.written)) :=
    ⟨rfl, by decide +kernel, .inl rfl⟩
  have hlookup : fogTree.lookup ["list.json"] = some (.file (Text.Utf8.encode fogConfig.written)) := by
    rw [fogTree, FileTree.lookup_set hset, List.nil_append, if_pos rfl]
  have hlocate : fogTree.locate ⟨"list.json"⟩ = .ok ["list.json"] := by decide +kernel
  refine ⟨?_, rfl, by decide⟩
  rw [chosenConfig, Config.load_of_file hlocate hlookup, Config.ofBytes_written]

theorem roomFor_fogTree (bytes : List UInt8) : fogTree.RoomFor bytes :=
  (FileTree.roomFor_empty bytes).of_room (by rw [fogTree, FileTree.room_set])

theorem allWritten_fog : ∃ u, AllWritten ⟨"out/demos"⟩ .demo fogTree [fog] u := by
  let p := Plan.ofModule ⟨"out/demos"⟩ fog .demo
  have hsettle : (fogTree.settle p.directory).1 = some ["out", "demos", "fog"] := by decide +kernel
  have hfree : ∀ path ∈ p.paths,
      (fogTree.settle p.directory).2.refusal? ["out", "demos", "fog"] path = none := by decide +kernel
  obtain ⟨files, hrender⟩ :=
    (Plan.exists_render_ofModule_iff ⟨"out/demos"⟩ fog .demo).mpr (exists_render_demo fog)
  obtain ⟨manifest, u, hwrite⟩ :=
    exists_writeScaffold (by decide) hrender hsettle hfree fun f _ => roomFor_fogTree f.bytes
  exact ⟨u, .cons hrender hwrite .nil⟩

/-- A command whose configuration is a file with one module. -/
theorem fog_scaffold_exit_code :
    ∃ output u, run (m := StateM FileTree) (fun _ => "TIME") (scaffoldArgs "out" (some "list.json")) fogTree =
        (.done output, u) ∧
      ∃ s, u.find ⟨"out/demos/fog/fog.cpp"⟩ = .ok (.file (Text.Utf8.encode s)) := by
  have hrequest : request (scaffoldArgs "out" (some "list.json")) =
      .command 0 (.scaffold ⟨"out"⟩ (some ⟨"list.json"⟩)) :=
    request_scaffold (by decide) (by decide)
  obtain ⟨ending, u, hrun, -, hiff, hdone, -⟩ := scaffold_exit_code hrequest (fun _ => "TIME") fogTree
  have hcode := hiff.mpr
    ⟨fogConfig, [fog], asked_fog, asked_fog.not_writeFails_iff.mpr allWritten_fog⟩
  obtain ⟨⟨lines, hending, -⟩, hfound⟩ := hdone fogConfig [fog] asked_fog hcode
  obtain ⟨s, -, hfind⟩ := hfound fog List.mem_cons_self _ List.mem_cons_self
  rw [hending] at hrun
  exact ⟨_, u, hrun, s.toList, hfind⟩

end CommandLine

end DemoScaffold
