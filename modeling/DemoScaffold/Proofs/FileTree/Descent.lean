import DemoScaffold.Proofs.FileTree.Creation
import DemoScaffold.Proofs.Path.Order

/-!
# The files below a path

A walk of the directories below a path names every file by the path with the names joined to it that lead
to the file. As long as no joined path is too long, these paths are resolved to the files they name
(`locate_descend`), all files below the path are among them, and no two of them have the same components.
-/

namespace DemoScaffold.FileTree

variable {t : FileTree} {p root : Path} {top l : Location} {names others : List String}
  {name : String} {bytes : List UInt8}

/-! ## Joining names -/

theorem isProper_of_isName (h : isName name = true) : Path.IsProper name := by
  obtain ⟨hidle, hup, -⟩ := leadsDown_of_isName h
  refine ⟨fun hslash => ?_, hidle, hup⟩
  simp only [isName, Bool.and_eq_true, List.all_eq_true] at h
  simpa using h.2 _ hslash

@[simp] theorem descend_nil (p : Path) : descend p [] = p := rfl

theorem descend_concat (p : Path) (names : List String) (name : String) :
    descend p (names ++ [name]) = (descend p names).join ⟨name⟩ := by
  rw [descend, List.foldl_concat, descend]

theorem base_descend (h : ∀ n ∈ names, Path.IsProper n) :
    (descend p names).base = p.base ++ names := by
  induction names using List.reverseRecOn with
  | nil => rw [descend_nil, List.append_nil]
  | append_singleton front name ih =>
      obtain ⟨hfront, hname⟩ := List.forall_mem_append.mp h
      have hproper := hname name List.mem_cons_self
      rw [descend_concat, Path.base_join_name _ hproper.noSlash hproper.ne_empty, ih hfront,
        List.append_assoc]

theorem components_descend (h : ∀ n ∈ names, Path.IsProper n) :
    (descend p names).components = p.components ++ names.map .normal := by
  induction names using List.reverseRecOn with
  | nil => simp
  | append_singleton front name ih =>
      obtain ⟨hfront, hname⟩ := List.forall_mem_append.mp h
      rw [descend_concat, Path.components_join_proper _ (hname name List.mem_cons_self), ih hfront]
      simp

theorem names_of_key (h : ∀ n ∈ names, Path.IsProper n) (h' : ∀ n ∈ others, Path.IsProper n)
    (heq : (descend p names).key = (descend p others).key) : names = others := by
  rw [Path.key_eq_iff, components_descend h, components_descend h', List.append_cancel_left_eq] at heq
  exact List.map_injective_iff.mpr (fun _ _ => Path.Component.normal.inj) heq

/-! ## Faults -/

theorem nul_notMem_join {q : Path} (hp : '\x00' ∉ p.text.toList) (hq : '\x00' ∉ q.text.toList) :
    '\x00' ∉ (p.join q).text.toList := by
  rw [Path.join]
  split_ifs <;> simp [hp, hq]

theorem text_join_ne_empty {q : Path} (hq : q.text ≠ "") : (p.join q).text ≠ "" := by
  rw [Path.join]
  split_ifs <;> simp [hq]

theorem fault?_descend (hroot : root.fault? = none) (h : ∀ n ∈ names, isName n = true)
    (hshort : (descend root names).text.utf8ByteSize < 4096) : (descend root names).fault? = none := by
  obtain ⟨hnul, hne, -⟩ := Path.fault?_eq_none_iff.mp hroot
  suffices '\x00' ∉ (descend root names).text.toList ∧ (descend root names).text ≠ "" from
    Path.fault?_eq_none_iff.mpr ⟨this.1, this.2, hshort⟩
  clear hshort
  induction names using List.reverseRecOn with
  | nil => exact ⟨hnul, hne⟩
  | append_singleton front name ih =>
      obtain ⟨hfront, hname⟩ := List.forall_mem_append.mp h
      have hisName := hname name List.mem_cons_self
      rw [descend_concat]
      refine ⟨nul_notMem_join (ih hfront).1 fun hmem => ?_,
        text_join_ne_empty (isProper_of_isName hisName).ne_empty⟩
      simp only [isName, Bool.and_eq_true, List.all_eq_true] at hisName
      simpa using hisName.2 _ hmem

/-! ## Resolving -/

/-- A slash at the end of a path leads nowhere else. -/
theorem walk_base (h : t.locate root = .ok top) : t.walk [] root.base = .ok top := by
  have hwalk := walk_of_locate h
  rcases root.segments_eq_base with hbase | hbase
  · rwa [hbase] at hwalk
  · rw [hbase, walk_append] at hwalk
    cases hto : t.walk [] root.base with
    | error fault =>
        rw [hto] at hwalk
        cases hwalk
    | ok here =>
        rw [hto] at hwalk
        change t.walk here [""] = .ok top at hwalk
        rw [walk_singleton] at hwalk
        obtain ⟨-, ⟨-, rfl⟩ | ⟨hup, -⟩ | ⟨hdown, -⟩⟩ := step_cases hwalk
        · rfl
        · exact absurd hup (by decide)
        · exact absurd hdown.1 (by decide)

/-- Every entry at or below a path is within the system's limit under the path joined with its names. -/
def WithinLimit (t : FileTree) (root : Path) : Prop :=
  ∀ top names, t.locate root = .ok top → t.lookup (top ++ names) ≠ none →
    (descend root names).text.utf8ByteSize < 4096

/-- The limit can be checked entry by entry. -/
theorem withinLimit_of_entries (htop : t.locate root = .ok top)
    (h : ∀ x ∈ t.entries, (descend root (x.1.drop top.length)).text.utf8ByteSize < 4096) :
    t.WithinLimit root := by
  intro top' names htop' hfound
  cases htop.symm.trans htop'
  by_cases hl : top ++ names = []
  · obtain ⟨-, rfl⟩ := List.append_eq_nil_iff.mp hl
    exact (Path.fault?_eq_none_iff.mp (fault?_of_locate htop)).2.2
  · obtain ⟨e, he⟩ := (lookup_ne_none_iff hl).mp hfound
    simpa using h _ he

theorem isName_below (h : t.lookup (top ++ names) ≠ none) : ∀ n ∈ names, isName n = true :=
  fun _ hn => isName_of_lookup h (List.mem_append_right _ hn)

theorem isProper_below (h : t.lookup (top ++ names) ≠ none) : ∀ n ∈ names, Path.IsProper n :=
  fun n hn => isProper_of_isName (isName_below h n hn)

theorem WithinLimit.fault? (hlimit : t.WithinLimit root) (htop : t.locate root = .ok top)
    (h : t.lookup (top ++ names) ≠ none) : (descend root names).fault? = none :=
  fault?_descend (fault?_of_locate htop) (isName_below h) (hlimit _ _ htop h)

/-- The path of an entry below a path leads to it, unless it is faulty. -/
theorem locate_descend_of_fault? (hfault : (descend root names).fault? = none)
    (htop : t.locate root = .ok top) (h : t.lookup (top ++ names) ≠ none) :
    t.locate (descend root names) = .ok (top ++ names) := by
  rcases List.eq_nil_or_concat' names with rfl | ⟨front, name, rfl⟩
  · simpa using htop
  · have hproper := List.forall_mem_append.mp (isProper_below h)
    have hsegments : (descend root (front ++ [name])).segments = root.base ++ (front ++ [name]) := by
      rw [descend_concat, Path.segments_join_name _ (hproper.2 name List.mem_cons_self).noSlash,
        base_descend hproper.1, List.append_assoc]
    rw [locate_of_fault?_eq_none hfault, hsegments, walk_append, walk_base htop]
    exact walk_names h

theorem locate_descend {e : Entry} (hlimit : t.WithinLimit root) (htop : t.locate root = .ok top)
    (hfound : t.lookup (top ++ names) = some e) :
    t.locate (descend root names) = .ok (top ++ names) := by
  have h : t.lookup (top ++ names) ≠ none := by simp [hfound]
  exact locate_descend_of_fault? (hlimit.fault? htop h) htop h

theorem fileName?_of_locate (h : t.locate p = .ok l) (hfile : t.lookup l = some (.file bytes)) :
    ∃ dir name, l = dir ++ [name] ∧ p.fileName? = some name := by
  obtain ⟨before, last, hsegments⟩ := (List.eq_nil_or_concat' p.segments).resolve_left p.segments_ne_nil
  have hwalk := walk_of_locate h
  rw [hsegments, walk_append] at hwalk
  cases hto : t.walk [] before with
  | error fault =>
      rw [hto] at hwalk
      cases hwalk
  | ok here =>
      rw [hto] at hwalk
      change t.walk here [last] = .ok l at hwalk
      rw [walk_singleton] at hwalk
      obtain ⟨hdir, ⟨-, rfl⟩ | ⟨-, rfl⟩ | ⟨hdown, rfl, -⟩⟩ := step_cases hwalk
      · simp [hdir] at hfile
      · have hparent : t.lookup here ≠ none := by simp [hdir]
        simp [lookup_dropLast hparent] at hfile
      · have hslash : '/' ∉ last.toList :=
          Path.slash_notMem_of_mem_segments (p := p) (by simp [hsegments])
        exact ⟨here, last, rfl, Path.fileName?_of_segments hsegments
          ⟨hslash, hdown.1, hdown.2.1⟩⟩

/-! ## The walk -/

theorem filesUnder_of_directory (htop : t.locate root = .ok top)
    (hdir : t.lookup top = some .directory) :
    p ∈ t.filesUnder root ↔ ∃ names bytes, (top ++ names, .file bytes) ∈ t.entries ∧
      (descend root names.dropLast).fault? = none ∧ p = descend root names := by
  simp only [filesUnder, htop, hdir, List.mem_filterMap, Option.ite_none_right_eq_some]
  constructor
  · rintro ⟨⟨l, e⟩, hmem, ⟨hfile, hprefix⟩, hfault, hp⟩
    obtain ⟨names, rfl⟩ := List.isPrefixOf_iff_prefix.mp hprefix
    cases e with
    | directory => exact absurd rfl hfile
    | file bytes =>
        rw [List.drop_left] at hfault hp
        exact ⟨names, bytes, hmem, hfault, (Option.some.inj hp).symm⟩
  · rintro ⟨names, bytes, hmem, hfault, rfl⟩
    refine ⟨_, hmem, ⟨by simp, List.isPrefixOf_iff_prefix.mpr (List.prefix_append _ _)⟩, ?_, ?_⟩
    · rwa [List.drop_left]
    · rw [List.drop_left]

/-- The walk finds the files at or below a path, and nothing else. -/
theorem mem_filesUnder (hlimit : t.WithinLimit root) (htop : t.locate root = .ok top) :
    p ∈ t.filesUnder root ↔
      ∃ names bytes, t.lookup (top ++ names) = some (.file bytes) ∧ p = descend root names := by
  cases hfound : t.lookup top with
  | none => exact absurd hfound (lookup_of_locate htop)
  | some e =>
      cases e with
      | file own =>
          have hself : t.filesUnder root = [root] := by simp only [filesUnder, htop, hfound]
          rw [hself, List.mem_singleton]
          constructor
          · rintro rfl
            exact ⟨[], own, by simpa using hfound, rfl⟩
          · rintro ⟨names, bytes, hfile, rfl⟩
            cases names with
            | nil => rfl
            | cons name rest =>
                have hbelow : t.lookup (top ++ name :: rest) ≠ none := by simp [hfile]
                have hdir := lookup_of_below hbelow
                rw [hfound] at hdir
                cases hdir
      | directory =>
          rw [filesUnder_of_directory htop hfound]
          refine exists_congr fun names => exists_congr fun bytes => ?_
          rw [lookup_file_iff]
          refine and_congr_right fun hmem => and_iff_right ?_
          have hparent : t.lookup (top ++ names.dropLast) ≠ none := by
            by_cases hnames : names = []
            · simp [hnames, hfound]
            · have hself : t.lookup (top ++ names) ≠ none := by simp [lookup_file_iff.mpr hmem]
              rw [← List.dropLast_append_of_ne_nil hnames, lookup_dropLast hself]
              simp
          exact hlimit.fault? htop hparent

/-- A path that the walk finds leads, if anywhere, to where its names lead from the top. -/
theorem names_of_mem_filesUnder (htop : t.locate root = .ok top) (hp : p ∈ t.filesUnder root)
    (hl : t.locate p = .ok l) : ∃ names, p = descend root names ∧ l = top ++ names := by
  cases hfound : t.lookup top with
  | none => exact absurd hfound (lookup_of_locate htop)
  | some e =>
      cases e with
      | file own =>
          simp only [filesUnder, htop, hfound, List.mem_singleton] at hp
          subst hp
          rw [htop, Except.ok.injEq] at hl
          exact ⟨[], rfl, by rw [List.append_nil, hl]⟩
      | directory =>
          obtain ⟨names, bytes, hmem, -, rfl⟩ := (filesUnder_of_directory htop hfound).mp hp
          have hfile : t.lookup (top ++ names) ≠ none := by simp [lookup_file_iff.mpr hmem]
          rw [locate_descend_of_fault? (fault?_of_locate hl) htop hfile, Except.ok.injEq] at hl
          exact ⟨names, rfl, hl.symm⟩

theorem eq_of_mem_filesUnder {q : Path} (hp : p ∈ t.filesUnder root) (hq : q ∈ t.filesUnder root)
    (hpl : t.locate p = .ok l) (hql : t.locate q = .ok l) : p = q := by
  cases htop : t.locate root with
  | error fault =>
      rw [filesUnder, htop] at hp
      cases hp
  | ok top =>
      obtain ⟨names, rfl, rfl⟩ := names_of_mem_filesUnder htop hp hpl
      obtain ⟨others, rfl, hl⟩ := names_of_mem_filesUnder htop hq hql
      rw [List.append_cancel_left hl]

theorem nodup_filesUnder (t : FileTree) (root : Path) : ((t.filesUnder root).map Path.key).Nodup := by
  rw [filesUnder]
  split
  · simp
  · rename_i top htop
    split
    · simp
    · simp
    · refine List.pairwise_map.mpr (List.pairwise_filterMap.mpr ?_)
      refine (List.pairwise_map.mp t.distinct).imp_of_mem ?_
      -- Two entries with one path would have the same names below the top.
      rintro ⟨l, e⟩ ⟨l', e'⟩ hmem hmem' hne p hp p' hp' hkey
      simp only [Option.ite_none_right_eq_some, Option.some.injEq] at hp hp'
      obtain ⟨⟨-, hprefix⟩, -, rfl⟩ := hp
      obtain ⟨⟨-, hprefix'⟩, -, rfl⟩ := hp'
      obtain ⟨names, rfl⟩ := List.isPrefixOf_iff_prefix.mp hprefix
      obtain ⟨names', rfl⟩ := List.isPrefixOf_iff_prefix.mp hprefix'
      rw [List.drop_left, List.drop_left] at hkey
      have hnames : ∀ n ∈ names, Path.IsProper n := fun n hn =>
        isProper_of_isName ((t.named _ hmem).2 n (List.mem_append_right _ hn))
      have hnames' : ∀ n ∈ names', Path.IsProper n := fun n hn =>
        isProper_of_isName ((t.named _ hmem').2 n (List.mem_append_right _ hn))
      exact hne (by rw [names_of_key hnames hnames' hkey])

end DemoScaffold.FileTree
