import Unjar.Proofs.Confinement
import Unjar.Proofs.Making
import Unjar.Proofs.Placement

/-!
Where a resource is copied.

Whether a resource is copied is decided by the location that its path names, with pairs of dots
taken back; but it is the path itself that is followed when its directories are made and its file is
written.  What can be followed leads to the location that it names, so the two are one, however the
path winds.  A resource that is passed over changes nothing, and one that fails changes no file: the
directories that it leaves behind are all that it has done.

Main definitions:

* `Unjar.Placement.resourceTarget`, `Unjar.Placement.Admits` — the location that the path of a
  resource names, and that it lies strictly beneath the directory of resources;
* `Unjar.Placement.CopyOutcome` — **the ways in which copying a resource ends**.

Main results:

* `Unjar.FileTree.locate_of_writeFile` — a file that was written is where its path leads;
* `Unjar.Placement.write_eq_error` — a write that fails changes no file;
* `Unjar.Placement.copyOutcome_copyResource` — copying a resource ends in one of these ways;
* `Unjar.Placement.copyResource_stays_beneath` — **copying never leads out of the directory of
  resources.**
-/

set_option autoImplicit false

namespace Unjar

variable {t t' : FileTree} {file : Path} {content : Bytes}

namespace FileTree

/-- A file that was written is where its path leads: no directory on the way gave way to it. -/
theorem locate_of_writeFile {u : Unit} (h : Returns (writeFile file content) t u t') :
    t'.locate file = .ok (Path.normalize t.workingDirectory file) := by
  obtain ⟨here, _, htarget, hput⟩ := returns_bind.mp h
  have hlocate : t.locate file = .ok here := by
    rw [Returns, outcome_target, Prod.mk.injEq] at htarget
    exact htarget.1
  obtain ⟨rfl, rfl⟩ := target_returns htarget
  replace hput := returns_get_bind.mp hput
  obtain ⟨rfl, hne⟩ := writeFile_returns h
  refine locate_mono (put_workingDirectory _ _ _) (fun there hthere => ?_) hlocate
  rw [get?_put hne]
  split
  · next he =>
    rw [← he, hthere] at hput
    exact absurd hput not_returns_throw
  · exact hthere

end FileTree

namespace Placement

/-! ### Writing -/

/-- A write that fails names its file and changes none. -/
theorem write_eq_error {fault : WriteFault} (h : write file content t = (.error fault, t')) :
    fault.path = file ∧ t.SameFiles t' := by
  have hmake := FileTree.keeps_makeDirectories file.parent t
  rcases hend : outcome (writeWithParents file content) t with ⟨cause | u, t₁⟩
  · rw [write_eq, hend] at h
    cases h
    refine ⟨rfl, ?_⟩
    rcases outcome_bind_eq_error hend with hfails | ⟨_, t₂, hmade, hfails⟩
    · rwa [hfails] at hmake
    · -- the directories are made, and the write that fails does nothing
      rw [FileTree.writeFile_error hfails]
      exact (FileTree.keeps_makeDirectories _).of_returns hmade
  · rw [write_eq, hend] at h
    cases h

/-- A write that succeeds has written the file to which its path leads. -/
theorem locate_of_write {u : Unit} (h : write file content t = (.ok u, t')) :
    t'.locate file = .ok (Path.normalize t.workingDirectory file) := by
  obtain ⟨t₁, hsame, hwrite⟩ := exists_of_write_eq_ok h
  rw [← hsame.working]
  exact FileTree.locate_of_writeFile hwrite

/-! ### Copying -/

/-- The location that the path of a resource names. -/
def resourceTarget (p : Placement) (t : FileTree) (relativePath : Text) : Location :=
  Path.normalize t.workingDirectory (p.resourceRoot.joinText relativePath)

/-- The path of a resource leads strictly beneath the directory of resources. -/
def Admits (p : Placement) (t : FileTree) (relativePath : Text) : Prop :=
  ∃ rest, rest ≠ [] ∧
    p.resourceTarget t relativePath = Path.normalize t.workingDirectory p.resourceRoot ++ rest

/-- **The ways in which copying a resource ends.** -/
inductive CopyOutcome (p : Placement) (relativePath : Text) (content : Bytes) (t : FileTree) :
    Except WriteFault (Option Path) × Placement × FileTree → Prop
  /-- It is passed over, and nothing changes. -/
  | skipped (hout : ¬p.Admits t relativePath) :
      CopyOutcome p relativePath content t (.ok none, p, t)
  /-- Its file is written, and no other file changes.  The path that is returned leads there. -/
  | written {t' : FileTree} (hin : p.Admits t relativePath)
      (hlocate : t'.locate (p.resourceRoot.joinText relativePath) =
        .ok (p.resourceTarget t relativePath))
      (hwrites : t.Writes (p.resourceTarget t relativePath) content t') :
      CopyOutcome p relativePath content t
        (.ok (some (p.resourceRoot.joinText relativePath)),
          { p with resourcesCopied := p.resourcesCopied + 1 }, t')
  /-- Writing it fails, and no file changes. -/
  | failed {fault : WriteFault} {t' : FileTree} (hin : p.Admits t relativePath)
      (hpath : fault.path = p.resourceRoot.joinText relativePath) (hsame : t.SameFiles t') :
      CopyOutcome p relativePath content t (.error fault, p, t')

/-- Copying a resource ends in one of these ways. -/
theorem copyOutcome_copyResource (p : Placement) (relativePath : Text) (content : Bytes)
    (t : FileTree) :
    p.CopyOutcome relativePath content t (p.copyResource relativePath content t) := by
  have hadmits : Path.isBeneath (p.resourceTarget t relativePath)
      (Path.normalize t.workingDirectory p.resourceRoot) = true ↔ p.Admits t relativePath :=
    Path.isBeneath_iff
  unfold copyResource
  dsimp only
  split
  · next hbeneath =>
    refine .skipped fun hin => ?_
    rw [resourceTarget] at hadmits
    rw [hadmits.mpr hin] at hbeneath
    cases hbeneath
  · next hbeneath =>
    have hin : p.Admits t relativePath := hadmits.mp (by simpa [resourceTarget] using hbeneath)
    split
    · next fault t' hfails =>
      obtain ⟨hpath, hsame⟩ := write_eq_error hfails
      exact .failed hin hpath hsame
    · next t' hwrite => exact .written hin (locate_of_write hwrite) (write_eq_ok hwrite)

/-- However copying a resource ends, a file that is not strictly beneath the directory of resources
stays as it is. -/
theorem CopyOutcome.file?_eq {p : Placement} {relativePath : Text}
    {ending : Except WriteFault (Option Path) × Placement × FileTree}
    (h : p.CopyOutcome relativePath content t ending) {here : Location}
    (hout : Path.isBeneath here (Path.normalize t.workingDirectory p.resourceRoot) = false) :
    ending.2.2.file? here = t.file? here := by
  cases h with
  | skipped => rfl
  | failed _ _ hsame => exact hsame.files here
  | written hin hlocate hwrites =>
      rw [hwrites.files, if_neg]
      rintro rfl
      rw [Path.isBeneath_iff.mpr hin] at hout
      cases hout

theorem CopyOutcome.none_iff {p : Placement} {relativePath : Text}
    {ending : Except WriteFault (Option Path) × Placement × FileTree}
    (h : p.CopyOutcome relativePath content t ending) :
    ending.1 = .ok none ↔ ¬p.Admits t relativePath := by
  cases h with
  | skipped hout => exact iff_of_true rfl hout
  | failed hin => exact iff_of_false nofun (not_not_intro hin)
  | written hin => exact iff_of_false nofun (not_not_intro hin)

/-- **Copying a resource never leads out of the directory of resources.**  It is passed over exactly
if its path does not lead strictly beneath; otherwise its file is written there and counted, or no
file changes at all.  In no case does a file change that is not strictly beneath. -/
theorem copyResource_stays_beneath (p : Placement) (relativePath : Text) (content : Bytes)
    (t : FileTree) :
    p.CopyOutcome relativePath content t (p.copyResource relativePath content t) ∧
      ((p.copyResource relativePath content t).1 = .ok none ↔ ¬p.Admits t relativePath) ∧
      ∀ here, Path.isBeneath here (Path.normalize t.workingDirectory p.resourceRoot) = false →
        (p.copyResource relativePath content t).2.2.file? here = t.file? here :=
  have h := copyOutcome_copyResource p relativePath content t
  ⟨h, h.none_iff, fun _ => h.file?_eq⟩

/-- A directory of resources beside a file. -/
def resourceTree : FileTree where
  nodes := [(["res".toList], .directory), (["keep".toList], .file [1])]
  workingDirectory := []

def resourcePlacement : Placement := start (.ofString "src") (.ofString "res") .empty

theorem copyResource_stays_beneath_sample :
    (∃ t', resourcePlacement.copyResource "new/../a".toList [7] resourceTree =
        (.ok (some (.ofString "res/new/../a")),
          { resourcePlacement with resourcesCopied := 1 }, t') ∧
      t'.file? ["res".toList, "a".toList] = some (.file [7]) ∧
      t'.file? ["keep".toList] = some (.file [1])) ∧
    (resourcePlacement.copyResource "../keep".toList [7] resourceTree).1 = .ok none := by
  have hout : ¬resourcePlacement.Admits resourceTree "../keep".toList := fun hin =>
    absurd (Path.isBeneath_iff.mpr hin) (by decide)
  refine ⟨⟨_, rfl, by decide, ?_⟩, ?_⟩
  · exact (copyResource_stays_beneath resourcePlacement "new/../a".toList [7] resourceTree).2.2
      ["keep".toList] (by decide)
  · exact (copyResource_stays_beneath resourcePlacement "../keep".toList [7]
      resourceTree).2.1.mpr hout

end Placement

end Unjar
