import DemoScaffold.Proofs.FileTree.Paving
import DemoScaffold.Proofs.Path.Segments

/-!
# Creating directories

A directory is created from its longest ancestor upwards, and from there downwards again. What comes
of it is what paving the segments of its path from the top makes, and nothing if the path is faulty
whatever the tree holds (`createDirAll_agrees`); only the faults can differ. None of them is a lack of
space.
-/

namespace DemoScaffold

/-! ## Faulty paths -/

namespace Path

theorem fault?_eq_none_iff {p : Path} :
    p.fault? = none ↔ '\x00' ∉ p.text.toList ∧ p.text ≠ "" ∧ p.text.utf8ByteSize < 4096 := by
  rw [fault?]
  by_cases hnul : '\x00' ∈ p.text.toList
  · simp [hnul]
  by_cases hempty : p.text = ""
  · simp [hempty]
  by_cases hlong : 4096 ≤ p.text.utf8ByteSize
  · simp [hnul, hempty, hlong]
  · simp [hnul, hempty, hlong, Nat.lt_of_not_le hlong]

theorem fault?_of_append {a b : String} (ha : a ≠ "") (h : (⟨a ++ b⟩ : Path).fault? = none) :
    (⟨a⟩ : Path).fault? = none := by
  obtain ⟨hnul, -, hlong⟩ := fault?_eq_none_iff.mp h
  simp only [String.toList_append, List.mem_append, not_or, String.utf8ByteSize_append] at hnul hlong
  exact fault?_eq_none_iff.mpr ⟨hnul.1, ha, Nat.lt_of_le_of_lt (Nat.le_add_right _ _) hlong⟩

theorem ne_notFound_of_fault? {p : Path} {fault : DiskFault} (hp : p.text ≠ "")
    (h : p.fault? = some fault) : fault ≠ .notFound := by
  rintro rfl
  rw [fault?, if_neg hp] at h
  split_ifs at h <;> cases h

theorem fault?_ne_noSpace (p : Path) : p.fault? ≠ some .noSpace := by
  rw [fault?]
  split_ifs <;> simp

theorem ne_empty_of_isIdle {s : String} (h : isIdle s = false) : s ≠ "" := by
  rintro rfl
  simp [isIdle] at h

theorem text_ne_of_segments {p : Path} {before : List String} {last : String}
    (h : p.segments = before ++ [last]) (hlast : last ≠ "") : p.text ≠ "" := by
  intro hempty
  rw [segments, hempty] at h
  have := congrArg List.getLast? h
  simp [splitSlash, Ne.symm hlast] at this

theorem fault?_withBody {p : Path} {body rest : List String} (hp : p.fault? = none)
    (hbody : p.body = body ++ rest) (hne : body ≠ []) (htext : (p.withBody body).text ≠ "") :
    (p.withBody body).fault? = none := by
  rw [withBody_eq hne] at htext ⊢
  have hwhole := joinSlash_segments p
  rw [← leadSegments_append_body, hbody, ← List.append_assoc] at hwhole
  by_cases hrest : rest = []
  · rw [hrest, List.append_nil] at hwhole
    rw [hwhole]
    exact hp
  · rw [joinSlash_append (by simp [hne]) hrest, String.append_assoc] at hwhole
    have hp' : (⟨joinSlash (p.leadSegments ++ body) ++ ("/" ++ joinSlash rest)⟩ : Path).fault? =
        none := by
      rw [hwhole]
      exact hp
    exact fault?_of_append htext hp'

theorem target?_of_segments {p : Path} {before : List String} {last : String}
    (h : p.segments = before ++ [last]) (hlast : last ≠ "") :
    p.target? = some (before, last, false) := by
  simp [target?, h, hlast]

theorem isName_of_mem_segments {p : Path} {s : String} (hp : p.fault? = none)
    (hmem : s ∈ p.segments) (hs : FileTree.leadsDown s) : isName s = true := by
  obtain ⟨hidle, hup, hshort⟩ := hs
  obtain ⟨hnul, -, -⟩ := fault?_eq_none_iff.mp hp
  have hslash := slash_notMem_of_mem_segments hmem
  have hnul' : '\x00' ∉ s.toList := fun h => hnul (subset_of_mem_segments hmem h)
  simp only [isIdle, Bool.or_eq_false_iff, decide_eq_false_iff_not] at hidle
  simp only [isName, ne_eq, Bool.and_eq_true, decide_eq_true_eq, List.all_eq_true]
  refine ⟨⟨⟨⟨hidle.1, hidle.2⟩, hup⟩, hshort⟩, fun c hc => ⟨?_, ?_⟩⟩
  · rintro rfl
    exact hslash hc
  · rintro rfl
    exact hnul' hc

end Path

namespace FileTree

variable {t u : FileTree} {here there dir : Location} {before : List String} {last : String}
  {p : Path}

/-! ## Resolving -/

theorem walk_append (xs ys : List String) :
    t.walk here (xs ++ ys) = (t.walk here xs).bind fun next => t.walk next ys := by
  induction xs generalizing here with
  | nil => rfl
  | cons s rest ih =>
      rw [List.cons_append, walk, walk]
      cases t.step here s with
      | error fault => rfl
      | ok next => exact ih

theorem walk_singleton (s : String) : t.walk here [s] = t.step here s := by
  rw [walk]
  cases t.step here s <;> rfl

theorem walk_of_idle {segments : List String} (h : ∀ s ∈ segments, Path.isIdle s = true)
    (hhere : t.lookup here = some .directory) : t.walk here segments = .ok here := by
  induction segments with
  | nil => rfl
  | cons s rest ih =>
      obtain ⟨hs, hrest⟩ := List.forall_mem_cons.mp h
      rw [walk, step_of_idle hhere hs]
      exact ih hrest

theorem walk_names {l : Location} {names : List String} (h : t.lookup (l ++ names) ≠ none) :
    t.walk l names = .ok (l ++ names) := by
  induction names generalizing l with
  | nil => rw [walk, List.append_nil]
  | cons name rest ih =>
      have hsplit : l ++ name :: rest = (l ++ [name]) ++ rest := by simp
      have hrest := h
      rw [hsplit] at hrest
      have hfound : t.lookup (l ++ [name]) ≠ none := by
        cases rest with
        | nil => simpa using hrest
        | cons _ _ => simp [lookup_of_below hrest]
      have hmem : name ∈ l ++ name :: rest := List.mem_append_right _ List.mem_cons_self
      have hdown := leadsDown_of_isName (isName_of_lookup h hmem)
      rw [walk, step_of_leadsDown (lookup_of_below h) hdown, if_pos (Option.isSome_iff_ne_none.mpr hfound)]
      change t.walk (l ++ [name]) rest = _
      rw [ih hrest, hsplit]

theorem Keeps.walk {segments : List String} (hk : t.Keeps u)
    (h : t.walk here segments = .ok there) : u.walk here segments = .ok there := by
  induction segments generalizing here with
  | nil => exact h
  | cons s rest ih =>
      rw [FileTree.walk] at h ⊢
      cases hstep : t.step here s with
      | error fault =>
          rw [hstep] at h
          cases h
      | ok next =>
          rw [hstep] at h
          rw [hk.step hstep]
          exact ih h

theorem locate_of_fault?_eq_none (hp : p.fault? = none) : t.locate p = t.walk [] p.segments := by
  rw [locate, hp]

theorem fault?_of_locate (h : t.locate p = .ok here) : p.fault? = none := by
  rw [locate] at h
  split at h
  · cases h
  · assumption

theorem walk_of_locate (h : t.locate p = .ok here) : t.walk [] p.segments = .ok here := by
  rwa [locate_of_fault?_eq_none (fault?_of_locate h)] at h

theorem walk_ne_noSpace {segments : List String} : t.walk here segments ≠ .error .noSpace := by
  induction segments generalizing here with
  | nil => simp [walk]
  | cons s rest ih =>
      rw [walk]
      cases hstep : t.step here s with
      | ok next => exact ih
      | error fault =>
          rcases step_error_cases hstep with ⟨-, rfl⟩ | ⟨-, rfl⟩ | ⟨-, -, -, -, rfl⟩ | ⟨-, -, -, rfl⟩ <;>
            simp [bind, Except.bind]

theorem holder_ne_noSpace : t.holder before ≠ .error .noSpace := by
  rw [holder]
  cases hwalk : t.walk [] before with
  | error fault =>
      intro h
      cases h
      exact walk_ne_noSpace hwalk
  | ok l =>
      simp only [bind, Except.bind]
      split <;> simp

theorem isDirectory_iff (hp : p.fault? = none) :
    t.isDirectory p = true ↔
      ∃ l, t.walk [] p.segments = .ok l ∧ t.lookup l = some .directory := by
  rw [isDirectory, find, locate_of_fault?_eq_none hp]
  cases t.walk [] p.segments with
  | error fault => simp [bind, Except.bind]
  | ok l =>
      cases hl : t.lookup l with
      | none => simp [bind, Except.bind, hl]
      | some e => cases e <;> simp [bind, Except.bind, hl]

theorem isDirectory_of_fault? {fault : DiskFault} (hp : p.fault? = some fault) :
    t.isDirectory p = false := by
  simp [isDirectory, find, locate, hp, bind, Except.bind]

/-! ## One directory -/

/-- What is answered by a creation and by paving: the same end and the same tree. -/
structure Agrees (x : Except DiskFault Unit × FileTree) (y : Option Location × FileTree) : Prop where
  answer : x.1.isOk = y.1.isSome
  tree : x.2 = y.2

/-- A directory that is created only now, or not at all: if it cannot be created, it may be there. -/
def answerOf (t : FileTree) (p : Path) : Except DiskFault FileTree → Except DiskFault Unit × FileTree
  | .ok made => (.ok (), made)
  | .error fault => (if t.isDirectory p then .ok () else .error fault, t)

theorem makeDirectories_of_ne (above : List Path) (h : t.makeDirectory p ≠ .error .notFound) :
    t.makeDirectories (p :: above) = t.answerOf p (t.makeDirectory p) := by
  rw [makeDirectories]
  split
  · rename_i made hmade
    rw [hmade]
    rfl
  · rename_i hmissing
    exact absurd hmissing h
  · rename_i fault _ hfault
    rw [hfault]
    rfl

theorem makeDirectories_of_missing (above : List Path)
    (h : t.makeDirectory p = .error .notFound) :
    t.makeDirectories (p :: above) =
      match t.makeDirectories above with
      | (.error fault, partly) => (.error fault, partly)
      | (.ok (), ready) => ready.answerOf p (ready.makeDirectory p) := by
  rw [makeDirectories, h]
  cases t.makeDirectories above with
  | mk answer ready =>
      cases answer with
      | error fault => rfl
      | ok done => cases hmade : ready.makeDirectory p <;> simp only [answerOf, hmade]

/-- A directory that is created is set somewhere, and nothing else is done. -/
theorem set_of_makeDirectory (h : t.makeDirectory p = .ok u) :
    ∃ dir name, u = t.set dir name .directory := by
  rw [makeDirectory] at h
  split at h
  · cases h
  · cases h
  · rename_i before last slash _ _
    cases hholder : t.holder before with
    | error fault =>
        rw [hholder] at h
        cases h
    | ok dir =>
        simp only [hholder, bind, Except.bind] at h
        split_ifs at h
        cases h
        exact ⟨dir, last, rfl⟩

/-- What holds between a tree and the same tree with one directory more, holds between a tree and what
creating directories makes of it, also where that fails. -/
theorem createDirAll_preserves {R : FileTree → FileTree → Prop} (hrefl : ∀ t, R t t)
    (htrans : ∀ {t u v}, R t u → R u v → R t v)
    (hset : ∀ t dir name, R t (t.set dir name .directory)) (t : FileTree) (p : Path) :
    R t (t.createDirAll p).2 := by
  have hanswer (t : FileTree) (p : Path) : R t (t.answerOf p (t.makeDirectory p)).2 := by
    cases hmade : t.makeDirectory p with
    | error fault => exact hrefl t
    | ok made =>
        obtain ⟨dir, name, rfl⟩ := set_of_makeDirectory hmade
        exact hset t dir name
  rw [createDirAll]
  induction p.ancestors with
  | nil => exact hrefl t
  | cons q above ih =>
      by_cases hmissing : t.makeDirectory q = .error .notFound
      · rw [makeDirectories_of_missing above hmissing]
        rcases hdone : t.makeDirectories above with ⟨fault | _, ready⟩ <;> rw [hdone] at ih
        · exact ih
        · exact htrans ih (hanswer ready q)
      · rw [makeDirectories_of_ne above hmissing]
        exact hanswer t q

theorem Keeps.createDirAll (t : FileTree) (p : Path) : t.Keeps (t.createDirAll p).2 :=
  createDirAll_preserves .refl .trans (fun t dir name => Keeps.set t dir name .directory) t p

theorem agrees_of_walk {fault : DiskFault} (hp : p.fault? = none)
    (hmade : t.makeDirectory p = .error fault)
    (h : t.walk [] p.segments ≠ .error .notFound) :
    Agrees (t.answerOf p (t.makeDirectory p)) (t.pave [] p.segments) := by
  rw [hmade, answerOf]
  cases hwalk : t.walk [] p.segments with
  | error fault' =>
      have hdir : t.isDirectory p = false := by
        rw [← Bool.not_eq_true, isDirectory_iff hp]
        simp [hwalk]
      rw [pave_of_walk_error hwalk fun heq => h (heq ▸ hwalk), hdir]
      exact ⟨rfl, rfl⟩
  | ok l =>
      rw [pave_of_walk hwalk]
      by_cases hl : t.lookup l = some .directory
      · rw [if_pos ((isDirectory_iff hp).mpr ⟨l, hwalk, hl⟩), if_pos hl]
        exact ⟨rfl, rfl⟩
      · have hdir : t.isDirectory p = false := by
          rw [← Bool.not_eq_true, isDirectory_iff hp]
          simp [hwalk, hl]
        rw [hdir, if_neg hl]
        exact ⟨rfl, rfl⟩

/-- The last directory of a path, given where the segments before it lead. -/
theorem makeDirectory_agrees (hp : p.fault? = none) (hsegments : p.segments = before ++ [last])
    (hlast : Path.isIdle last = false) (hbefore : t.walk [] before = .ok dir)
    (hdir : t.lookup dir = some .directory) :
    t.makeDirectory p ≠ .error .notFound ∧
      Agrees (t.answerOf p (t.makeDirectory p)) (t.pave [] p.segments) := by
  have hne : last ≠ "" ∧ last ≠ "." := by simpa [Path.isIdle] using hlast
  have hholder : t.holder before = .ok dir := by
    rw [holder, hbefore]
    simp [bind, Except.bind, hdir]
  have hwalk : t.walk [] p.segments = t.step dir last := by
    rw [hsegments, walk_append, hbefore]
    exact walk_singleton last
  have hmade : t.makeDirectory p =
      if last = ".." then .error .alreadyExists
      else if 255 < last.utf8ByteSize then .error .nameTooLong
      else if (t.lookup (dir ++ [last])).isSome then .error .alreadyExists
      else .ok (t.set dir last .directory) := by
    rw [makeDirectory, hp, Path.target?_of_segments hsegments hne.1]
    simp [hholder, hne.2, bind, Except.bind]
  by_cases hup : last = ".."
  · rw [if_pos hup] at hmade
    refine ⟨by simp [hmade], agrees_of_walk hp hmade ?_⟩
    rw [hwalk, hup, step_up hdir]
    simp
  by_cases hlong : 255 < last.utf8ByteSize
  · rw [if_neg hup, if_pos hlong] at hmade
    refine ⟨by simp [hmade], agrees_of_walk hp hmade ?_⟩
    rw [hwalk, step]
    simp [hdir, hlast, hup, hlong]
  have hdown : leadsDown last := ⟨hlast, hup, Nat.not_lt.mp hlong⟩
  rw [if_neg hup, if_neg hlong] at hmade
  by_cases hfound : (t.lookup (dir ++ [last])).isSome
  · rw [if_pos hfound] at hmade
    refine ⟨by simp [hmade], agrees_of_walk hp hmade ?_⟩
    rw [hwalk, step_of_leadsDown hdir hdown, if_pos hfound]
    simp
  · rw [if_neg hfound] at hmade
    have hname := Path.isName_of_mem_segments hp (by simp [hsegments]) hdown
    have hset : t.CanSet dir last .directory := ⟨hdir, hname, .inl (by simpa using hfound)⟩
    have hpave : t.pave [] p.segments = (some (dir ++ [last]), t.set dir last .directory) := by
      rw [hsegments, pave_append, pave_of_walk hbefore, if_pos hdir]
      simp [pave, step_of_leadsDown hdir hdown, hfound, hset, lookup_set hset]
    rw [hpave, hmade]
    exact ⟨by simp, rfl, rfl⟩

theorem makeDirectory_of_holder_error {fault : DiskFault} (hp : p.fault? = none)
    (hsegments : p.segments = before ++ [last]) (hlast : last ≠ "")
    (hholder : t.holder before = .error fault) : t.makeDirectory p = .error fault := by
  rw [makeDirectory, hp, Path.target?_of_segments hsegments hlast]
  simp [hholder, bind, Except.bind]

theorem makeDirectory_current (t : FileTree) : t.makeDirectory ⟨"."⟩ = .error .alreadyExists := by
  have hsegments : (⟨"."⟩ : Path).segments = [] ++ ["."] :=
    Path.segments_eq_singleton (by decide)
  have hp : (⟨"."⟩ : Path).fault? = none := Path.fault?_eq_none_iff.mpr (by decide)
  rw [makeDirectory, hp, Path.target?_of_segments hsegments (by decide)]
  simp [holder, walk, bind, Except.bind]

/-! ## All directories of a path -/

theorem pave_concat_idle {segments : List String} {s : String} (hs : Path.isIdle s = true) :
    t.pave here (segments ++ [s]) = t.pave here segments := by
  rw [pave_append]
  split
  · rename_i next u heq
    have hnext : u.lookup next = some .directory := by
      have hdir : (t.pave here segments).2.lookup next = some .directory :=
        lookup_of_pave (by rw [heq])
      rwa [heq] at hdir
    simp [pave, step_of_idle hnext hs, hnext, heq]
  · rename_i u heq
    rw [heq]

theorem lookup_of_walk {segments : List String} (hhere : (t.lookup here).isSome)
    (h : t.walk here segments = .ok there) : (t.lookup there).isSome := by
  induction segments generalizing here with
  | nil =>
      cases h
      exact hhere
  | cons s rest ih =>
      rw [walk] at h
      cases hstep : t.step here s with
      | error fault =>
          rw [hstep] at h
          cases h
      | ok next =>
          rw [hstep] at h
          exact ih (lookup_of_step hstep) h

theorem lookup_of_locate (h : t.locate p = .ok here) : t.lookup here ≠ none :=
  Option.isSome_iff_ne_none.mp (lookup_of_walk (lookup_nil_isSome t) (walk_of_locate h))

/-- A directory in one that is missing is tried twice, the second time in the tree with the directories
above it. -/
theorem agrees_of_missing {above : List Path} (hp : p.fault? = none)
    (hsegments : p.segments = before ++ [last]) (hlast : Path.isIdle last = false)
    (hmissing : t.makeDirectory p = .error .notFound)
    (habove : Agrees (t.makeDirectories above) (t.pave [] before)) :
    Agrees (t.makeDirectories (p :: above)) (t.pave [] p.segments) := by
  have hresume := pave_resume (lookup_nil_isSome t) before [last]
  rw [← hsegments] at hresume
  rw [makeDirectories_of_missing _ hmissing, ← hresume]
  rcases hdone : t.makeDirectories above with ⟨fault | _, ready⟩ <;> rw [hdone] at habove <;>
    obtain ⟨hanswer, rfl⟩ := habove
  · rcases hpave : t.pave [] before with ⟨_ | dir, paved⟩
    · rw [hsegments, pave_append]
      have hstay := pave_again (lookup_nil_isSome t) (Keeps.refl (t.pave [] before).2)
      rw [hpave] at hstay
      rw [hstay]
      exact ⟨rfl, rfl⟩
    · rw [hpave] at hanswer
      cases hanswer
  · obtain ⟨dir, hdir⟩ := Option.isSome_iff_exists.mp hanswer.symm
    have hwalk := walk_of_pave (by simp) hdir (Keeps.refl _)
    exact (makeDirectory_agrees hp hsegments hlast hwalk (lookup_of_pave hdir)).2

/-- If the directories above agree with paving, so does the directory with them. -/
theorem makeDirectories_cons_agrees {above : List Path} (hp : p.fault? = none)
    (hsegments : p.segments = before ++ [last]) (hlast : Path.isIdle last = false)
    (habove : Agrees (t.makeDirectories above) (t.pave [] before)) :
    Agrees (t.makeDirectories (p :: above)) (t.pave [] p.segments) := by
  have hne := Path.ne_empty_of_isIdle hlast
  -- Where the walk to the directory above ends decides how the first attempt goes.
  cases hwalk : t.walk [] before with
  | error fault =>
      have hmade : t.makeDirectory p = .error fault :=
        makeDirectory_of_holder_error hp hsegments hne (by simp [holder, hwalk, bind, Except.bind])
      have hend : t.walk [] p.segments = .error fault := by
        rw [hsegments, walk_append, hwalk]
        rfl
      by_cases hfault : fault = .notFound
      · subst hfault
        exact agrees_of_missing hp hsegments hlast hmade habove
      · rw [makeDirectories_of_ne _ (by simp [hmade, hfault])]
        exact agrees_of_walk hp hmade (by simp [hend, hfault])
  | ok dir =>
      obtain ⟨e, he⟩ := Option.isSome_iff_exists.mp (lookup_of_walk (by simp) hwalk)
      cases e with
      | directory =>
          obtain ⟨hmade, hagrees⟩ := makeDirectory_agrees hp hsegments hlast hwalk he
          rw [makeDirectories_of_ne _ hmade]
          exact hagrees
      | file bytes =>
          have hmade : t.makeDirectory p = .error .notDirectory :=
            makeDirectory_of_holder_error hp hsegments hne
              (by simp [holder, hwalk, he, bind, Except.bind])
          have hend : t.walk [] p.segments = .error .notDirectory := by
            rw [hsegments, walk_append, hwalk]
            simp [Except.bind, walk_singleton, step, he]
          rw [makeDirectories_of_ne _ (by simp [hmade])]
          exact agrees_of_walk hp hmade (by simp [hend])

/-- Creating the directories at the beginnings of a body, the last one first, agrees with paving up to
the longest of them. -/
theorem makeDirectories_agrees (hp : p.fault? = none) {reversed rest : List String}
    (hbody : p.body = reversed.reverse ++ rest) :
    Agrees (t.makeDirectories (p.leadingPaths reversed))
      (t.pave [] (p.leadSegments ++ reversed.reverse)) := by
  induction reversed generalizing rest with
  | nil =>
      have hidle : ∀ s ∈ p.leadSegments ++ [], Path.isIdle s = true := fun s hs =>
        Path.isIdle_of_mem_leadSegments (by simpa using hs)
      rw [List.reverse_nil, pave_of_walk (walk_of_idle hidle (lookup_nil t)), Path.leadingPaths]
      split
      · rw [makeDirectories_of_ne [] (by simp [makeDirectory_current]), makeDirectory_current]
        have hdir : t.isDirectory ⟨"."⟩ = true := by
          rw [isDirectory_iff (Path.fault?_eq_none_iff.mpr (by decide)),
            Path.segments_eq_singleton (by decide)]
          exact ⟨[], walk_of_idle (by simp [Path.isIdle]) (lookup_nil t), lookup_nil t⟩
        simp only [answerOf, hdir, if_true, lookup_nil]
        exact ⟨rfl, rfl⟩
      · exact ⟨rfl, rfl⟩
  | cons s before ih =>
      have hrest : p.body = before.reverse ++ (s :: rest) := by simpa using hbody
      have habove := ih hrest
      rw [List.reverse_cons, ← List.append_assoc]
      by_cases hs : Path.isIdle s = true
      · rw [pave_concat_idle hs, Path.leadingPaths, if_pos hs]
        exact habove
      rw [Bool.not_eq_true] at hs
      have hne := Path.ne_empty_of_isIdle hs
      rw [Path.leadingPaths, hs]
      simp only [Bool.false_eq_true, if_false]
      have hmem : ∀ x ∈ (s :: before).reverse, '/' ∉ x.toList := fun x hx =>
        Path.slash_notMem_of_mem_segments (p := p) (by
          rw [← Path.leadSegments_append_body, hbody]
          exact List.mem_append_right _ (List.mem_append_left _ hx))
      generalize hq : p.withBody (s :: before).reverse = q
      have hsegments : q.segments = (p.leadSegments ++ before.reverse) ++ [s] := by
        rw [← hq, Path.segments_withBody (by simp) hmem]
        simp
      have hqfault : q.fault? = none := by
        rw [← hq]
        refine Path.fault?_withBody hp hbody (by simp) ?_
        rw [hq]
        exact Path.text_ne_of_segments hsegments hne
      rw [← hsegments]
      exact makeDirectories_cons_agrees hqfault hsegments hs habove

/-! ## Settling a directory -/

/-- What becomes of a directory and those above it: its location if it is there in the end, and the
tree. -/
def settle (t : FileTree) (p : Path) : Option Location × FileTree :=
  if p.fault? = none then t.pave [] p.segments else (none, t)

theorem createDirAll_of_fault? {fault : DiskFault} (hp : p.fault? = some fault)
    (hsegments : p.segments = before ++ [last]) (hlast : Path.isIdle last = false) :
    t.createDirAll p = (.error fault, t) := by
  have hne := Path.ne_empty_of_isIdle hlast
  have hmade : t.makeDirectory p = .error fault := by
    rw [makeDirectory, hp]
  have hfault : fault ≠ .notFound :=
    Path.ne_notFound_of_fault? (Path.text_ne_of_segments hsegments hne) hp
  obtain ⟨above, habove⟩ := Path.ancestors_eq_cons hsegments hlast
  rw [createDirAll, habove, makeDirectories_of_ne above (by simp [hmade, hfault]), hmade, answerOf,
    isDirectory_of_fault? hp]
  rfl

theorem createDirAll_agrees (hsegments : p.segments = before ++ [last])
    (hlast : Path.isIdle last = false) : Agrees (t.createDirAll p) (t.settle p) := by
  rw [settle]
  cases hp : p.fault? with
  | some fault =>
      rw [createDirAll_of_fault? hp hsegments hlast]
      exact ⟨rfl, rfl⟩
  | none =>
      have hbody : p.body = p.body.reverse.reverse ++ [] := by simp
      have hagrees := makeDirectories_agrees (t := t) hp hbody
      rw [List.reverse_reverse, Path.leadSegments_append_body] at hagrees
      rw [createDirAll, Path.ancestors_eq_leadingPaths hsegments hlast]
      exact hagrees

theorem Keeps.settle (t : FileTree) (p : Path) : t.Keeps (t.settle p).2 := by
  rw [FileTree.settle]
  split
  · exact Keeps.pave t [] p.segments
  · exact Keeps.refl t

theorem lookup_of_settle (h : (t.settle p).1 = some dir) :
    (t.settle p).2.lookup dir = some .directory := by
  rw [settle] at h ⊢
  split at h
  · rename_i hp
    rw [if_pos hp]
    exact lookup_of_pave h
  · cases h

theorem walk_of_settle (h : (t.settle p).1 = some dir) :
    (t.settle p).2.walk [] p.segments = .ok dir := by
  rw [settle] at h ⊢
  split at h
  · rename_i hp
    rw [if_pos hp]
    exact walk_of_pave (lookup_nil_isSome t) h (Keeps.refl _)
  · cases h

/-- A directory that has been settled stays as it is, and one that could not be settled never can. -/
theorem settle_again (hk : (t.settle p).2.Keeps u) : u.settle p = ((t.settle p).1, u) := by
  rw [settle] at hk ⊢
  rw [settle]
  split
  · rename_i hp
    rw [if_pos hp] at hk
    exact pave_again (lookup_nil_isSome t) hk
  · rfl

end FileTree

end DemoScaffold
