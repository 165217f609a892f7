import DemoScaffold.Proofs.FileTree.Writing

/-!
# Scaffolds below one root

The directories of several scaffolds are entries of the directory that the segments of a root lead to.
Two trees are alike at such an entry if, once those segments have been paved, they hold the same at it
and below it, and if they have the same room. Writing a scaffold depends on nothing else, and changes
nothing at any other entry.
-/

namespace DemoScaffold.FileTree

variable {t u v : FileTree} {base : List String} {name : String} {p : Path} {dir top : Location}
  {files : List RenderedFile}

/-! ## Alike trees -/

/-- Once the base has been paved, the trees hold the same at its entry and below. They have the same
room. -/
structure AlikeAt (base : List String) (name : String) (t u : FileTree) : Prop where
  room : t.room = u.room
  place : (t.pave [] base).1 = (u.pave [] base).1
  below : ∀ {top}, (t.pave [] base).1 = some top → ∀ l,
    (t.pave [] base).2.lookup (top ++ name :: l) = (u.pave [] base).2.lookup (top ++ name :: l)

theorem AlikeAt.refl (t : FileTree) : AlikeAt base name t t :=
  ⟨rfl, rfl, fun _ _ => rfl⟩

theorem AlikeAt.symm (h : AlikeAt base name t u) : AlikeAt base name u t :=
  ⟨h.room.symm, h.place.symm, fun htop l => (h.below (h.place.trans htop) l).symm⟩

theorem AlikeAt.trans (h₁ : AlikeAt base name t u) (h₂ : AlikeAt base name u v) :
    AlikeAt base name t v :=
  ⟨h₁.room.trans h₂.room, h₁.place.trans h₂.place, fun htop l =>
    (h₁.below htop l).trans (h₂.below (h₁.place.symm.trans htop) l)⟩

/-- A tree in which the base has been paved is alike if it holds the same at the entry and below. -/
theorem alikeAt_of_keeps (hk : (t.pave [] base).2.Keeps u)
    (h : ∀ {top}, (t.pave [] base).1 = some top → ∀ l,
      (t.pave [] base).2.lookup (top ++ name :: l) = u.lookup (top ++ name :: l)) :
    AlikeAt base name t u := by
  have hagain := pave_again (lookup_nil_isSome t) hk
  refine ⟨((Keeps.pave t [] base).trans hk).room.symm, by rw [hagain], fun htop l => ?_⟩
  rw [hagain]
  exact h htop l

/-! ## Settling an entry -/

theorem pave_singleton (hdir : t.lookup top = some .directory) (hidle : Path.isIdle name = false)
    (hup : name ≠ "..") :
    t.pave top [name] =
      if t.lookup (top ++ [name]) = some .directory then (some (top ++ [name]), t)
      else if t.CanSet top name .directory then (some (top ++ [name]), t.set top name .directory)
      else (none, t) := by
  rw [pave]
  cases hfound : t.lookup (top ++ [name]) with
  | some e =>
      have hsome : t.lookup (top ++ [name]) ≠ none := by simp [hfound]
      have hname : isName name = true := isName_of_lookup hsome (by simp)
      rw [step_of_leadsDown hdir (leadsDown_of_isName hname), hfound]
      cases e with
      | directory => simp [pave, hfound]
      | file bytes => simp [pave, hfound, CanSet]
  | none =>
      by_cases hname : isName name = true
      · have hset : t.CanSet top name .directory := ⟨hdir, hname, .inl hfound⟩
        rw [step_of_leadsDown hdir (leadsDown_of_isName hname), hfound]
        simp [hset, pave, lookup_set hset]
      · have hset : ¬ t.CanSet top name .directory := fun h => hname h.2.1
        by_cases hlong : 255 < name.utf8ByteSize
        · simp [step, hdir, hidle, hup, hlong, hset]
        · simp [step, hdir, hidle, hup, hlong, hfound, hset]

theorem settle_eq (hp : p.LiesIn base) (hfault : p.fault? = none) :
    t.settle p =
      match t.pave [] base with
      | (some top, u) => u.pave top [p.lastSegment]
      | (none, u) => (none, u) := by
  rw [settle, if_pos hfault, hp.segments]
  exact pave_append base [p.lastSegment]

theorem settle_of_fault (hfault : p.fault? ≠ none) : t.settle p = (none, t) := by
  rw [settle, if_neg hfault]

/-- Where the base leads once it has been paved, if it leads anywhere. -/
theorem pave_cases (t : FileTree) (base : List String) :
    (∃ u, t.pave [] base = (none, u)) ∨
      ∃ top u, t.pave [] base = (some top, u) ∧ u.lookup top = some .directory := by
  rcases hpave : t.pave [] base with ⟨_ | top, u⟩
  · exact .inl ⟨u, rfl⟩
  · have hdir : (t.pave [] base).2.lookup top = some .directory := lookup_of_pave (by rw [hpave])
    rw [hpave] at hdir
    exact .inr ⟨top, u, rfl, hdir⟩

/-- An entry is settled in the directory that the base leads to. -/
theorem location_of_settle (hp : p.LiesIn base) (h : (t.settle p).1 = some dir) :
    ∃ top, (t.pave [] base).1 = some top ∧ dir = top ++ [p.lastSegment] := by
  by_cases hfault : p.fault? = none
  · rw [settle_eq hp hfault] at h
    rcases pave_cases t base with ⟨u, hpave⟩ | ⟨top, u, hpave, hdir⟩ <;> rw [hpave] at h
    · cases h
    · simp only [pave_singleton hdir hp.notIdle hp.notUp] at h
      refine ⟨top, by rw [hpave], ?_⟩
      split_ifs at h <;> cases h <;> rfl
  · rw [settle_of_fault hfault] at h
    cases h

theorem keeps_pave_settle (hp : p.LiesIn base) (hfault : p.fault? = none) :
    (t.pave [] base).2.Keeps (t.settle p).2 := by
  rw [settle_eq hp hfault]
  rcases t.pave [] base with ⟨_ | top, u⟩
  · exact Keeps.refl u
  · exact Keeps.pave u top [p.lastSegment]

theorem pave_settle (hp : p.LiesIn base) (hfault : p.fault? = none) :
    (t.settle p).2.pave [] base = ((t.pave [] base).1, (t.settle p).2) :=
  pave_again (lookup_nil_isSome t) (keeps_pave_settle hp hfault)

/-- Settling an entry changes nothing at any other one. -/
theorem alikeAt_settle_of_ne (hp : p.LiesIn base) (hne : p.lastSegment ≠ name) :
    AlikeAt base name t (t.settle p).2 := by
  by_cases hfault : p.fault? = none
  · refine alikeAt_of_keeps (keeps_pave_settle hp hfault) fun {top'} htop l => ?_
    rw [settle_eq hp hfault]
    rcases pave_cases t base with ⟨u, hpave⟩ | ⟨top, u, hpave, hdir⟩ <;> simp only [hpave] at htop ⊢
    cases htop
    rw [pave_singleton hdir hp.notIdle hp.notUp]
    split_ifs with hfound hset
    · rfl
    · rw [lookup_set hset, if_neg]
      simp [Ne.symm hne]
    · rfl
  · rw [settle_of_fault hfault]
    exact AlikeAt.refl t

theorem pave_singleton_alike (hdir : t.lookup top = some .directory)
    (hdir' : u.lookup top = some .directory) (hidle : Path.isIdle name = false) (hup : name ≠ "..")
    (h : ∀ l, t.lookup (top ++ name :: l) = u.lookup (top ++ name :: l)) :
    (t.pave top [name]).1 = (u.pave top [name]).1 ∧
      ∀ l, (t.pave top [name]).2.lookup (top ++ name :: l) =
        (u.pave top [name]).2.lookup (top ++ name :: l) := by
  have hset : t.CanSet top name .directory ↔ u.CanSet top name .directory := by
    simp only [CanSet, hdir, hdir', h []]
  rw [pave_singleton hdir hidle hup, pave_singleton hdir' hidle hup, h []]
  split_ifs with hfound hcan hcan' hcan'
  · exact ⟨rfl, h⟩
  · refine ⟨rfl, fun l => ?_⟩
    rw [lookup_set hcan, lookup_set hcan', h l]
  · exact absurd (hset.mp hcan) hcan'
  · exact absurd (hset.mpr hcan') hcan
  · exact ⟨rfl, h⟩

theorem AlikeAt.settle (hp : p.LiesIn base) (h : AlikeAt base p.lastSegment t u) :
    (t.settle p).1 = (u.settle p).1 ∧ AlikeAt base p.lastSegment (t.settle p).2 (u.settle p).2 := by
  by_cases hfault : p.fault? = none
  · have hplace := h.place
    -- The bases end alike, so what is left to compare is the step from there to the entry.
    have hpaved : (t.settle p).1 = (u.settle p).1 ∧
        ∀ {top}, (t.pave [] base).1 = some top → ∀ l,
          (t.settle p).2.lookup (top ++ p.lastSegment :: l) =
            (u.settle p).2.lookup (top ++ p.lastSegment :: l) := by
      have hbelow := @h.below
      rw [settle_eq hp hfault, settle_eq hp hfault]
      rcases pave_cases t base with ⟨v, ht⟩ | ⟨top, v, ht, hv⟩ <;>
        rcases pave_cases u base with ⟨w, hu⟩ | ⟨top', w, hu, hw⟩ <;>
        simp only [ht, hu] at hplace hbelow ⊢
      · exact ⟨trivial, fun htop => by cases htop⟩
      · cases hplace
      · cases hplace
      · cases hplace
        obtain ⟨hend, hlookup⟩ := pave_singleton_alike hv hw hp.notIdle hp.notUp (hbelow rfl)
        refine ⟨hend, fun htop => ?_⟩
        cases htop
        exact hlookup
    have hroom : (t.settle p).2.room = (u.settle p).2.room := by
      rw [(Keeps.settle t p).room, (Keeps.settle u p).room, h.room]
    refine ⟨hpaved.1, hroom, by rw [pave_settle hp hfault, pave_settle hp hfault, hplace], ?_⟩
    rw [pave_settle hp hfault, pave_settle hp hfault]
    exact hpaved.2
  · rw [settle_of_fault hfault, settle_of_fault hfault]
    exact ⟨rfl, h⟩

/-! ## Writing an entry -/

theorem alikeAt_of_paved (hroom : t.room = u.room) (ht : t.pave [] base = (some top, t))
    (hu : u.pave [] base = (some top, u))
    (h : ∀ l, t.lookup (top ++ name :: l) = u.lookup (top ++ name :: l)) :
    AlikeAt base name t u := by
  refine ⟨hroom, by rw [ht, hu], fun {top'} htop l => ?_⟩
  rw [ht] at htop ⊢
  rw [hu]
  cases htop
  exact h l

theorem AlikeAt.lookup_eq (h : AlikeAt base name t u) (ht : t.pave [] base = (some top, t))
    (hu : u.pave [] base = (some top, u)) (l : Location) :
    t.lookup (top ++ name :: l) = u.lookup (top ++ name :: l) := by
  have htop : (t.pave [] base).1 = some top := by rw [ht]
  have hbelow := h.below htop l
  rwa [ht, hu] at hbelow

theorem fault?_of_settle {q : Path} (h : (t.settle q).1 = some dir) : q.fault? = none := by
  by_contra hfault
  rw [settle_of_fault hfault] at h
  cases h

/-- Where an entry has been settled, later trees have its location. -/
theorem settled_cases (hp : p.LiesIn base) (t : FileTree) :
    (∃ u, t.settle p = (none, u)) ∨
      ∃ top u, t.settle p = (some (top ++ [p.lastSegment]), u) ∧
        u.lookup (top ++ [p.lastSegment]) = some .directory ∧
        ∀ v, u.Keeps v → v.pave [] base = (some top, v) := by
  rcases hsettle : t.settle p with ⟨_ | dir, u⟩
  · exact .inl ⟨u, rfl⟩
  · have hend : (t.settle p).1 = some dir := by rw [hsettle]
    have hdir := lookup_of_settle hend
    obtain ⟨top, htop, rfl⟩ := location_of_settle hp hend
    have hk := keeps_pave_settle hp (fault?_of_settle hend) (t := t)
    rw [hsettle] at hdir hk
    refine .inr ⟨top, u, rfl, hdir, fun v hv => ?_⟩
    rw [pave_again (lookup_nil_isSome t) (hk.trans hv), htop]

theorem opened_liesIn {before : List String} (hfiles : ∀ f ∈ files, f.path.LiesIn before) :
    ∀ f ∈ t.opened dir files, f.path.LiesIn before ∧ t.refusal? dir f.path = none :=
  fun f hf => (mem_of_mem_opened hf).imp (hfiles f) id

/-- Writing a scaffold changes nothing at any other entry. -/
theorem alikeAt_scaffoldTree_of_ne (hp : p.LiesIn base)
    (hfiles : ∀ f ∈ files, f.path.LiesIn p.segments) (hne : p.lastSegment ≠ name) :
    AlikeAt base name t (t.scaffoldTree p files) := by
  have hsettled := alikeAt_settle_of_ne (t := t) hp hne
  rw [scaffoldTree]
  rcases settled_cases hp t with ⟨u, hend⟩ | ⟨top, u, hend, hdir, hpaved⟩ <;> rw [hend] at hsettled ⊢
  · exact hsettled
  · have hu := hpaved u (Keeps.refl u)
    refine hsettled.trans (alikeAt_of_keeps (by rw [hu]; exact Keeps.setFiles u _ _) ?_)
    rw [hu]
    intro top' htop l
    cases htop
    rw [lookup_setFiles (opened_liesIn hfiles) hdir, leftAt_eq_none, Option.none_or]
    simp [Ne.symm hne]

/-- The same is written for an entry in alike trees, and they stay alike. -/
theorem AlikeAt.scaffold (hp : p.LiesIn base) (hfiles : ∀ f ∈ files, f.path.LiesIn p.segments)
    (h : AlikeAt base p.lastSegment t u) :
    t.scaffoldFiles p files = u.scaffoldFiles p files ∧
      (∀ failure, t.StopsWith p files failure ↔ u.StopsWith p files failure) ∧
      AlikeAt base p.lastSegment (t.scaffoldTree p files) (u.scaffoldTree p files) := by
  obtain ⟨hsame, halike⟩ := h.settle hp
  simp only [scaffoldFiles, StopsWith, scaffoldTree]
  rcases settled_cases hp t with ⟨v, ht⟩ | ⟨top, v, ht, hdir, hv⟩ <;>
    rcases settled_cases hp u with ⟨w, hu⟩ | ⟨top', w, hu, hdir', hw⟩ <;>
    rw [ht, hu] at hsame halike <;> simp only [ht, hu]
  · exact ⟨trivial, fun _ => trivial, halike⟩
  · cases hsame
  · cases hsame
  · obtain rfl : top = top' := by simpa using hsame
    have hlookup := halike.lookup_eq (hv v (Keeps.refl v)) (hw w (Keeps.refl w))
    have hrefusal : ∀ f ∈ files, v.refusal? (top ++ [p.lastSegment]) f.path =
        w.refusal? (top ++ [p.lastSegment]) f.path := fun f _ =>
      refusal?_congr (by rw [List.append_assoc]; exact iff_of_eq (by rw [List.cons_append, hlookup]))
    obtain ⟨haccepted, hopened, hfailure⟩ := writing_congr halike.room hrefusal
    have hroom : (v.setFiles (top ++ [p.lastSegment]) (v.opened (top ++ [p.lastSegment]) files)).room =
        (w.setFiles (top ++ [p.lastSegment]) (w.opened (top ++ [p.lastSegment]) files)).room := by
      rw [(Keeps.setFiles v _ _).room, (Keeps.setFiles w _ _).room, halike.room]
    refine ⟨haccepted, fun _ => by rw [hfailure],
      alikeAt_of_paved hroom (hv _ (Keeps.setFiles v _ _)) (hw _ (Keeps.setFiles w _ _)) fun l => ?_⟩
    rw [lookup_setFiles (opened_liesIn hfiles) hdir, lookup_setFiles (opened_liesIn hfiles) hdir',
      hopened, hlookup l, leftAt_congr halike.room]

/-- A scaffold that is found in a later tree as it was left is written again to the same end, and the
tree stays as it is. -/
theorem scaffold_again (hp : p.LiesIn base) (hfiles : ∀ f ∈ files, f.path.LiesIn p.segments)
    (hk : (t.scaffoldTree p files).Keeps u)
    (h : AlikeAt base p.lastSegment (t.scaffoldTree p files) u) :
    u.scaffoldFiles p files = t.scaffoldFiles p files ∧
      u.scaffoldFails p files = t.scaffoldFails p files ∧ u.scaffoldTree p files = u := by
  have hagain := settle_again ((keeps_settle_scaffoldTree t p files).trans hk)
  rw [scaffoldFiles, scaffoldFiles, scaffoldFails, scaffoldFails, scaffoldTree, hagain]
  rw [scaffoldTree] at hk h
  rcases settled_cases hp t with ⟨v, ht⟩ | ⟨top, v, ht, hdir, hpaved⟩ <;> simp only [ht] at hk h ⊢
  · exact ⟨trivial, trivial, trivial⟩
  · have hv := Keeps.setFiles v (top ++ [p.lastSegment]) (v.opened (top ++ [p.lastSegment]) files)
    have hlookup := h.lookup_eq (hpaved _ hv) (hpaved u (hv.trans hk))
    have hleft : ∀ name, u.lookup (top ++ [p.lastSegment] ++ [name]) =
        (v.setFiles (top ++ [p.lastSegment])
          (v.opened (top ++ [p.lastSegment]) files)).lookup (top ++ [p.lastSegment] ++ [name]) := by
      intro name
      rw [List.append_assoc]
      exact (hlookup [name]).symm
    have hrefusal : ∀ f ∈ files, u.refusal? (top ++ [p.lastSegment]) f.path =
        v.refusal? (top ++ [p.lastSegment]) f.path := fun f _ => refusal?_again hleft
    obtain ⟨haccepted, hopened, hfailure⟩ := writing_congr (hv.trans hk).room hrefusal
    rw [haccepted, hopened, hfailure]
    exact ⟨rfl, rfl, setFiles_again (opened_liesIn hfiles) hdir hk hleft⟩

/-! ## Subtrees -/

/-- What is found at a path and below it. -/
def subtree (t : FileTree) (p : Path) (below : Location) : Option Entry :=
  match t.locate p with
  | .ok l => t.lookup (l ++ below)
  | .error _ => none

/-- Nothing is found below a base that cannot be paved. -/
theorem subtree_of_pave_none (hp : p.LiesIn base) (h : (t.pave [] base).1 = none) (l : Location) :
    t.subtree p l = none := by
  have hwalk : ∃ fault, t.walk [] p.segments = .error fault := by
    rw [hp.segments, walk_append]
    cases hbase : t.walk [] base with
    | error fault => exact ⟨fault, rfl⟩
    | ok top =>
        rw [pave_of_walk hbase] at h
        have hdir : t.lookup top ≠ some .directory := by simpa using h
        change ∃ fault, t.walk top [p.lastSegment] = .error fault
        rw [walk_singleton, step]
        split <;> simp_all
  obtain ⟨fault, hwalk⟩ := hwalk
  rw [subtree, locate]
  cases p.fault? with
  | some fault => rfl
  | none => simp only [hwalk]

theorem subtree_of_paved (hp : p.LiesIn base) (hfault : p.fault? = none)
    (h : t.pave [] base = (some top, t)) (l : Location) :
    t.subtree p l =
      if p.lastSegment.utf8ByteSize ≤ 255 ∧ (t.lookup (top ++ [p.lastSegment])).isSome then
        t.lookup (top ++ p.lastSegment :: l)
      else none := by
  have hend : (t.pave [] base).1 = some top := by rw [h]
  have hdir := lookup_of_pave hend
  have hwalk := walk_of_pave (lookup_nil_isSome t) hend (Keeps.refl _)
  rw [h] at hdir hwalk
  have hstep : t.walk [] p.segments = t.step top p.lastSegment := by
    rw [hp.segments, walk_append, hwalk]
    exact walk_singleton p.lastSegment
  rw [subtree, locate, hfault]
  simp only [hstep, step, hdir, hp.notIdle, hp.notUp]
  by_cases hlong : 255 < p.lastSegment.utf8ByteSize
  · simp [hlong, Nat.not_le.mpr hlong]
  · by_cases hfound : (t.lookup (top ++ [p.lastSegment])).isSome
    · simp [hlong, Nat.not_lt.mp hlong, hfound]
    · simp [hlong, hfound]

theorem AlikeAt.subtree_eq (hp : p.LiesIn base) (h : AlikeAt base p.lastSegment t u)
    (ht : p.fault? = none → (t.pave [] base).2 = t)
    (hu : p.fault? = none → (u.pave [] base).2 = u) : t.subtree p = u.subtree p := by
  funext l
  cases hfault : p.fault? with
  | some fault => simp only [subtree, locate, hfault]
  | none =>
      cases hplace : (t.pave [] base).1 with
      | none =>
          rw [subtree_of_pave_none hp hplace, subtree_of_pave_none hp (h.place.symm.trans hplace)]
      | some top =>
          have ht' : t.pave [] base = (some top, t) := Prod.ext hplace (ht hfault)
          have hu' : u.pave [] base = (some top, u) :=
            Prod.ext (h.place.symm.trans hplace) (hu hfault)
          have hlookup := h.lookup_eq ht' hu'
          rw [subtree_of_paved hp hfault ht', subtree_of_paved hp hfault hu', hlookup l, hlookup []]

end DemoScaffold.FileTree
