import DemoScaffold.Proofs.FileTree.Lookup
import Mathlib.Tactic.ByContra
import Mathlib.Tactic.SplitIfs

/-!
# Paving

Paving follows segments like `walk` and creates every directory that is missing. It stops where a file
is in the way or a segment cannot be a name. What has been paved stays paved, and what could not be
paved never can be (`pave_again`).
-/

namespace DemoScaffold.FileTree

variable {t u : FileTree} {here there : Location} {segments : List String} {s : String}
  {fault : DiskFault}

/-! ## Steps -/

/-- The segments that can lead to an entry of a directory. -/
def leadsDown (s : String) : Prop :=
  Path.isIdle s = false ∧ s ≠ ".." ∧ s.utf8ByteSize ≤ 255

theorem leadsDown_of_isName (h : isName s = true) : leadsDown s := by
  simp only [isName, ne_eq, Bool.and_eq_true, decide_eq_true_eq] at h
  obtain ⟨⟨⟨⟨hempty, hdot⟩, hup⟩, hshort⟩, -⟩ := h
  exact ⟨by simp [Path.isIdle, hempty, hdot], hup, hshort⟩

theorem step_of_idle (hhere : t.lookup here = some .directory) (hs : Path.isIdle s = true) :
    t.step here s = .ok here := by
  simp [step, hhere, hs]

theorem step_up (hhere : t.lookup here = some .directory) : t.step here ".." = .ok here.dropLast := by
  simp [step, hhere, Path.isIdle]

theorem step_of_leadsDown (hhere : t.lookup here = some .directory) (hs : leadsDown s) :
    t.step here s =
      if (t.lookup (here ++ [s])).isSome then .ok (here ++ [s]) else .error .notFound := by
  obtain ⟨hidle, hup, hshort⟩ := hs
  simp [step, hhere, hidle, hup, Nat.not_lt.mpr hshort]

theorem step_cases (h : t.step here s = .ok there) :
    t.lookup here = some .directory ∧
      (Path.isIdle s = true ∧ there = here ∨ s = ".." ∧ there = here.dropLast ∨
        leadsDown s ∧ there = here ++ [s] ∧ (t.lookup (here ++ [s])).isSome) := by
  rw [step] at h
  split at h
  · cases h
  · cases h
  · rename_i hdir
    refine ⟨hdir, ?_⟩
    by_cases hidle : Path.isIdle s = true
    · simp_all
    by_cases hup : s = ".."
    · simp_all
    by_cases hlong : 255 < s.utf8ByteSize
    · simp_all
    by_cases hfound : (t.lookup (here ++ [s])).isSome
    · simp_all [leadsDown]
    · simp_all

theorem step_error_cases (h : t.step here s = .error fault) :
    t.lookup here = none ∧ fault = .notFound ∨
      (∃ bytes, t.lookup here = some (.file bytes)) ∧ fault = .notDirectory ∨
      t.lookup here = some .directory ∧ Path.isIdle s = false ∧ s ≠ ".." ∧ 255 < s.utf8ByteSize ∧
        fault = .nameTooLong ∨
      t.lookup here = some .directory ∧ leadsDown s ∧ t.lookup (here ++ [s]) = none ∧
        fault = .notFound := by
  rw [step] at h
  split at h
  · simp_all
  · simp_all
  · by_cases hidle : Path.isIdle s = true
    · simp_all
    by_cases hup : s = ".."
    · simp_all
    by_cases hlong : 255 < s.utf8ByteSize
    · simp_all
    by_cases hfound : (t.lookup (here ++ [s])).isSome
    · simp_all
    · simp_all [leadsDown]

theorem step_notFound (hhere : (t.lookup here).isSome) (h : t.step here s = .error .notFound) :
    t.lookup here = some .directory ∧ leadsDown s ∧ t.lookup (here ++ [s]) = none := by
  rcases step_error_cases h with ⟨hnone, -⟩ | ⟨-, hfault⟩ | ⟨-, -, -, -, hfault⟩ |
    ⟨hdir, hs, hmissing, -⟩
  · simp [hnone] at hhere
  · cases hfault
  · cases hfault
  · exact ⟨hdir, hs, hmissing⟩

theorem lookup_of_step (h : t.step here s = .ok there) : (t.lookup there).isSome := by
  obtain ⟨hdir, ⟨-, rfl⟩ | ⟨-, rfl⟩ | ⟨-, rfl, hfound⟩⟩ := step_cases h
  · simp [hdir]
  · have hfound : t.lookup here ≠ none := by simp [hdir]
    simp [lookup_dropLast hfound]
  · exact hfound

theorem Keeps.step (hk : t.Keeps u) (h : t.step here s = .ok there) : u.step here s = .ok there := by
  obtain ⟨hdir, ⟨hidle, rfl⟩ | ⟨rfl, rfl⟩ | ⟨hs, rfl, hfound⟩⟩ := step_cases h
  · exact step_of_idle (hk.directory hdir) hidle
  · exact step_up (hk.directory hdir)
  · rw [step_of_leadsDown (hk.directory hdir) hs, if_pos (hk.isSome hfound)]

/-- Only what is missing can turn up later. -/
theorem Keeps.step_error (hk : t.Keeps u) (h : t.step here s = .error fault)
    (hfault : fault ≠ .notFound) : u.step here s = .error fault := by
  rcases step_error_cases h with ⟨-, rfl⟩ | ⟨⟨bytes, hfile⟩, rfl⟩ |
    ⟨hdir, hidle, hup, hlong, rfl⟩ | ⟨-, -, -, rfl⟩
  · exact absurd rfl hfault
  · obtain ⟨_, hu⟩ := hk.file hfile
    simp [FileTree.step, hu]
  · simp [FileTree.step, hk.directory hdir, hidle, hup, hlong]
  · exact absurd rfl hfault

/-! ## Paving -/

/-- Follows segments and creates the directories that are missing: where the segments lead, if they
can be followed, and the tree after that. -/
def pave (t : FileTree) (here : Location) : List String → Option Location × FileTree
  | [] => (if t.lookup here = some .directory then some here else none, t)
  | s :: rest =>
    match t.step here s with
    | .ok next => t.pave next rest
    | .error .notFound =>
      if t.CanSet here s .directory then (t.set here s .directory).pave (here ++ [s]) rest
      else (none, t)
    | .error _ => (none, t)

theorem Keeps.pave (t : FileTree) (here : Location) (segments : List String) :
    t.Keeps (t.pave here segments).2 := by
  fun_induction FileTree.pave t here segments with
  | case1 t here => exact Keeps.refl t
  | case2 t here s rest next hstep ih => exact ih
  | case3 t here s rest hstep hset ih => exact (Keeps.set t here s .directory).trans ih
  | case4 t here s rest hstep hset => exact Keeps.refl t
  | case5 t here s rest fault hfault hstep => exact Keeps.refl t

theorem lookup_of_pave (h : (t.pave here segments).1 = some there) :
    (t.pave here segments).2.lookup there = some .directory := by
  fun_induction FileTree.pave t here segments with
  | case1 t here =>
      obtain ⟨hdir, heq⟩ := Option.ite_none_right_eq_some.mp h
      cases heq
      exact hdir
  | case2 t here s rest next hstep ih => exact ih h
  | case3 t here s rest hstep hset ih => exact ih h
  | case4 t here s rest hstep hset => cases h
  | case5 t here s rest fault hfault hstep => cases h

/-- Where segments lead already, nothing is created. -/
theorem pave_of_walk (h : t.walk here segments = .ok there) :
    t.pave here segments = (if t.lookup there = some .directory then some there else none, t) := by
  fun_induction FileTree.pave t here segments with
  | case1 t here =>
      cases h
      rfl
  | case2 t here s rest next hstep ih =>
      rw [walk, hstep] at h
      exact ih h
  | case3 t here s rest hstep hset ih =>
      rw [walk, hstep] at h
      cases h
  | case4 t here s rest hstep hset =>
      rw [walk, hstep] at h
      cases h
  | case5 t here s rest fault hfault hstep =>
      rw [walk, hstep] at h
      cases h

/-- What stops a walk, if it is no missing entry, stops paving before anything has been created. -/
theorem pave_of_walk_error (h : t.walk here segments = .error fault) (hfault : fault ≠ .notFound) :
    t.pave here segments = (none, t) := by
  fun_induction FileTree.pave t here segments with
  | case1 t here => cases h
  | case2 t here s rest next hstep ih =>
      rw [walk, hstep] at h
      exact ih h
  | case3 t here s rest hstep hset ih =>
      rw [walk, hstep] at h
      cases h
      exact absurd rfl hfault
  | case4 t here s rest hstep hset => rfl
  | case5 t here s rest fault' hfault' hstep => rfl

/-! ## Later trees -/

/-- A later tree can be walked through as it was paved. -/
theorem walk_of_pave (hhere : (t.lookup here).isSome) (h : (t.pave here segments).1 = some there)
    (hk : (t.pave here segments).2.Keeps u) : u.walk here segments = .ok there := by
  fun_induction FileTree.pave t here segments with
  | case1 t here =>
      obtain ⟨hdir, heq⟩ := Option.ite_none_right_eq_some.mp h
      cases heq
      rfl
  | case2 t here s rest next hstep ih =>
      rw [walk, ((Keeps.pave t next rest).trans hk).step hstep]
      exact ih (lookup_of_step hstep) h hk
  | case3 t here s rest hstep hset ih =>
      obtain ⟨hdir, hs, -⟩ := step_notFound hhere hstep
      have hnew : (t.set here s .directory).lookup (here ++ [s]) = some .directory := by
        simp [lookup_set hset]
      have hlater := (Keeps.pave (t.set here s .directory) (here ++ [s]) rest).trans hk
      have hkept := ((Keeps.set t here s .directory).trans hlater).directory hdir
      rw [walk, step_of_leadsDown hkept hs, hlater.directory hnew]
      exact ih (by simp [hnew]) h hk
  | case4 t here s rest hstep hset => cases h
  | case5 t here s rest fault hfault hstep => cases h

theorem pave_again (hhere : (t.lookup here).isSome) (hk : (t.pave here segments).2.Keeps u) :
    u.pave here segments = ((t.pave here segments).1, u) := by
  fun_induction FileTree.pave t here segments with
  | case1 t here =>
      rw [FileTree.pave]
      obtain ⟨e, he⟩ := Option.isSome_iff_exists.mp hhere
      cases e with
      | directory => simp [he, hk.directory he]
      | file bytes =>
          obtain ⟨_, hu⟩ := hk.file he
          simp [he, hu]
  | case2 t here s rest next hstep ih =>
      rw [FileTree.pave, ((Keeps.pave t next rest).trans hk).step hstep]
      exact ih (lookup_of_step hstep) hk
  | case3 t here s rest hstep hset ih =>
      obtain ⟨hdir, hs, -⟩ := step_notFound hhere hstep
      have hnew : (t.set here s .directory).lookup (here ++ [s]) = some .directory := by
        simp [lookup_set hset]
      have hlater := (Keeps.pave (t.set here s .directory) (here ++ [s]) rest).trans hk
      have hkept := ((Keeps.set t here s .directory).trans hlater).directory hdir
      rw [FileTree.pave, step_of_leadsDown hkept hs, hlater.directory hnew]
      exact ih (by simp [hnew]) hk
  | case4 t here s rest hstep hset =>
      -- The segment cannot be set although its directory is there, so it is no name.
      obtain ⟨hdir, hs, hnone⟩ := step_notFound hhere hstep
      have hname : isName s ≠ true := fun hname => hset ⟨hdir, hname, .inl hnone⟩
      have hmissing : u.lookup (here ++ [s]) = none := by
        by_contra hfound
        exact hname (isName_of_lookup hfound (by simp))
      rw [FileTree.pave, step_of_leadsDown (hk.directory hdir) hs, hmissing]
      exact if_neg fun h => hname h.2.1
  | case5 t here s rest fault hfault hstep =>
      rw [FileTree.pave, hk.step_error hstep hfault]
      split
      · simp_all
      · simp_all
      · rfl

theorem pave_of_not_directory (h : t.lookup here ≠ some .directory) :
    t.pave here segments = (none, t) := by
  cases segments with
  | nil => simp [FileTree.pave, h]
  | cons s rest =>
      rw [FileTree.pave, step]
      split
      · rename_i heq
        split at heq <;> simp_all
      · exact if_neg fun hset => h hset.1
      · rfl

theorem pave_append (xs ys : List String) :
    t.pave here (xs ++ ys) =
      match t.pave here xs with
      | (some next, u) => u.pave next ys
      | (none, u) => (none, u) := by
  fun_induction FileTree.pave t here xs with
  | case1 t here =>
      by_cases hdir : t.lookup here = some .directory
      · simp [hdir]
      · simp [hdir, pave_of_not_directory hdir]
  | case2 t here s rest next hstep ih => simpa [FileTree.pave, hstep] using ih
  | case3 t here s rest hstep hset ih => simpa [FileTree.pave, hstep, hset] using ih
  | case4 t here s rest hstep hset => simp [FileTree.pave, hstep, hset]
  | case5 t here s rest fault hfault hstep =>
      rw [List.cons_append, FileTree.pave, hstep]
      split
      · simp_all
      · simp_all
      · rfl

/-- What has been paved can be left out of account when more is paved. -/
theorem pave_resume (hhere : (t.lookup here).isSome) (xs ys : List String) :
    (t.pave here xs).2.pave here (xs ++ ys) = t.pave here (xs ++ ys) := by
  rw [pave_append, pave_append, pave_again hhere (Keeps.refl _)]

end DemoScaffold.FileTree
