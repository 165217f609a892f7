import DemoScaffold.Proofs.FileTree.Changes

/-!
# Sessions

Scaffolds written one after the other with one manifest. Whatever directories and files are asked for,
and wherever a scaffold fails, each path that has been recorded leads to a file with the bytes that were
last written there (`manifest_holds_over_sessions`). Nothing that is written later moves the place that a
path leads to, so the bytes are known from the record alone. A file that is cut counts as one that has
been opened: it takes the place of what was written there.
-/

namespace DemoScaffold

namespace FileTree

variable {t u v : FileTree} {p : Path} {f : RenderedFile} {record files : List RenderedFile}
  {place : Location} {requests : List ScaffoldRequest}

/-! ## The record -/

/-- A path leads to a place, and a file is the last one of a record whose path leads there. -/
structure Latest (t : FileTree) (record : List RenderedFile) (p : Path) (last : RenderedFile)
    (place : Location) : Prop where
  locate : t.locate p = .ok place
  locateLast : t.locate last.path = .ok place
  isLast : ∃ before after, record = before ++ last :: after ∧ ∀ g ∈ after, t.locate g.path ≠ .ok place

/-- Every file of a record leads to what has been taken of the last one that leads there. -/
def Holds (t : FileTree) (record : List RenderedFile) : Prop :=
  ∀ f ∈ record, ∃ last place, t.Latest record f.path last place ∧
    t.lookup place = some (.file (t.taken place last.bytes))

/-! ## Directories -/

/-- Whatever is found in `t` is found in `u`, and files have kept their bytes. -/
structure KeepsFiles (t u : FileTree) : Prop where
  keeps : t.Keeps u
  bytes : ∀ {l bytes}, t.lookup l = some (.file bytes) → u.lookup l = some (.file bytes)

theorem KeepsFiles.refl (t : FileTree) : t.KeepsFiles t :=
  ⟨Keeps.refl t, fun h => h⟩

theorem KeepsFiles.trans (h₁ : t.KeepsFiles u) (h₂ : u.KeepsFiles v) : t.KeepsFiles v :=
  ⟨h₁.keeps.trans h₂.keeps, fun h => h₂.bytes (h₁.bytes h)⟩

theorem KeepsFiles.setDirectory (t : FileTree) (dir : Location) (name : String) :
    t.KeepsFiles (t.set dir name .directory) :=
  ⟨Keeps.set t dir name .directory, lookup_set_directory_eq_file.mpr⟩

theorem KeepsFiles.createDirAll (t : FileTree) (p : Path) : t.KeepsFiles (t.createDirAll p).2 :=
  createDirAll_preserves .refl .trans .setDirectory t p

/-! ## Steps -/

/-- In a later tree the paths of a record lead to the same places. -/
theorem Latest.keep {last : RenderedFile} (h : t.Latest record p last place) (hk : t.Keeps u)
    (hrecord : ∀ f ∈ record, ∃ l, t.locate f.path = .ok l) : u.Latest record p last place := by
  obtain ⟨before, after, rfl, hafter⟩ := h.isLast
  refine ⟨hk.locate h.locate, hk.locate h.locateLast, before, after, rfl, fun g hg hl => ?_⟩
  obtain ⟨l, hlocate⟩ := hrecord g (by simp [hg])
  rw [hk.locate hlocate, Except.ok.injEq] at hl
  exact hafter g hg (hl ▸ hlocate)

theorem Holds.exists_locate (h : t.Holds record) : ∀ f ∈ record, ∃ l, t.locate f.path = .ok l :=
  fun f hf =>
    let ⟨_, place, hlatest, _⟩ := h f hf
    ⟨place, hlatest.locate⟩

/-- A record holds on where files keep their bytes. -/
theorem Holds.keep (h : t.Holds record) (hk : t.KeepsFiles u) : u.Holds record := by
  intro f hf
  obtain ⟨last, place, hlatest, hlookup⟩ := h f hf
  refine ⟨last, place, hlatest.keep hk.keeps h.exists_locate, ?_⟩
  rw [taken_congr hk.keeps.room]
  exact hk.bytes hlookup

end FileTree

end DemoScaffold
