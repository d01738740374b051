import Mathlib.Data.List.Nodup
import Mathlib.Data.List.Perm.Subperm
import Unjar.Pom.File
import Unjar.Proofs.Confinement
import Unjar.Proofs.Making

/-!
Replacing a file as a whole.

The new content is written to a file of a free name beside the old one, which is then moved over it.
There always is a free name, since there are more names to choose from than nodes in the tree.  The
write fails if the directory of the file is missing, and then there is nothing to take back; the move
fails if the path cannot be followed or leads to a directory, and then the new file is taken away
again.  So the file is replaced exactly if none of this is the case, and otherwise the tree is what it
was.

The directory is looked for where the components of the path lead with pairs of dots taken back, the
file where the path leads as it stands.  In a path through a missing directory and back the two differ:
the new file can be written, and it is taken away again because it cannot be moved.

Main definitions:

* `Unjar.FileTree.Replaceable` — a file can be put where a path leads;
* `Unjar.ProjectDescriptor.WriteOutcome` — **the ways in which writing a descriptor ends**.

Main results:

* `Unjar.FileTree.exists_freeName` — a free name is always found;
* `Unjar.FileTree.returns_replaceFile_iff` — **a file is replaced exactly if it can be**;
* `Unjar.FileTree.stat_of_replaceFile` — the path of a file that was replaced leads to its content;
* `Unjar.ProjectDescriptor.writeTo_atomic` — **a descriptor is written as a whole or not at all**.
-/

set_option autoImplicit false

namespace Unjar

namespace FileTree

variable {t t' u : FileTree} {p : Path} {here there source root : Location} {content : Bytes}
  {node : Node} {parts : List Text} {name : Text} {r : Nat} {v : Unit}

/-! ### Names that are free -/

theorem nodup_candidateNames (t : FileTree) (name : Text) : (t.candidateNames name).Nodup := by
  refine List.nodup_range.map fun k k' h => ?_
  have hdotted : '.' :: name ++ '.' :: Text.ofNat k = '.' :: name ++ '.' :: Text.ofNat k' :=
    List.append_cancel_right h
  exact Text.ofNat_injective (List.cons.inj (List.append_cancel_left hdotted)).2

/-- **A free name is always found**: there are more names than nodes. -/
theorem exists_freeName (t : FileTree) (directory : Location) (name : Text) :
    ∃ found, t.freeName directory (t.candidateNames name) = some found := by
  by_contra hnone
  rw [← Option.isSome_iff_exists, Option.not_isSome_iff_eq_none] at hnone
  have htaken : (t.candidateNames name).map (fun candidate => directory ++ [candidate]) ⊆
      t.nodes.map Prod.fst := by
    intro there hthere
    obtain ⟨candidate, hcandidate, rfl⟩ := List.mem_map.mp hthere
    obtain ⟨node, hnode⟩ : ∃ node, t.get? (directory ++ [candidate]) = some node :=
      Option.ne_none_iff_exists'.mp (by simpa using List.find?_eq_none.mp hnone _ hcandidate)
    have hlookup : t.nodes.lookup (directory ++ [candidate]) = some node := by
      simpa [get?] using hnode
    exact List.mem_map.mpr ⟨_, mem_of_lookup_eq_some hlookup, rfl⟩
  have hnodup : ((t.candidateNames name).map fun candidate => directory ++ [candidate]).Nodup :=
    (nodup_candidateNames t name).map fun a b h => by simpa using h
  have hlength := (List.subperm_of_subset hnodup htaken).length_le
  rw [List.length_map, candidateNames, List.length_map, List.length_range, List.length_map]
    at hlength
  exact absurd hlength (Nat.not_succ_le_self _)

/-! ### Paths in two trees -/

/-- Where two trees have the same directories, paths lead to the same locations. -/
theorem locate_congr (hworking : u.workingDirectory = t.workingDirectory)
    (h : ∀ there, u.get? there = some .directory ↔ t.get? there = some .directory) :
    u.locate p = .ok here ↔ t.locate p = .ok here :=
  ⟨locate_mono hworking.symm fun there => (h there).mp,
    locate_mono hworking fun there => (h there).mpr⟩

/-- A file that is put where no directory stands leaves the directories as they are. -/
theorem get?_put_eq_directory (h : t.get? here ≠ some .directory) (there : Location) :
    (t.put here (.file content)).get? there = some .directory ↔
      t.get? there = some .directory := by
  have hne : here ≠ [] := by
    rintro rfl
    exact h rfl
  rw [get?_put hne]
  split
  · next he =>
    rw [he]
    exact iff_of_false (by simp) h
  · exact Iff.rfl

/-- What stands in front of the last name of a path that can be followed is a directory. -/
theorem stat_of_locate_concat (h : t.locate ⟨r, parts ++ [name]⟩ = .ok here) :
    t.stat ⟨r, parts⟩ = some .directory := by
  unfold locate at h
  dsimp only at h
  rw [follow_append] at h
  obtain ⟨there, hthere, hlast⟩ := bind_eq_ok.mp h
  unfold follow at hlast
  split at hlast
  · next hdirectory =>
    unfold stat locate
    dsimp only
    rw [hthere]
    exact hdirectory
  · cases hlast
  · cases hlast

/-- A path can be followed one name further than to a directory. -/
theorem locate_concat (h : t.stat ⟨r, parts⟩ = some .directory) (hname : Path.up ≠ name) :
    t.locate ⟨r, parts ++ [name]⟩ =
      .ok (Path.normalize t.workingDirectory ⟨r, parts⟩ ++ [name]) := by
  unfold stat at h
  split at h
  · next there hlocate =>
    rw [locate_append hlocate, follow, h]
    dsimp only
    rw [follow, step_of_ne_up hname, locate_eq hlocate]
  · cases h

/-! ### The steps -/

/-- A file is written exactly if its path can be followed and leads to no directory. -/
theorem returns_writeFile_iff : Returns (writeFile p content) t v t' ↔
    ∃ here, t.locate p = .ok here ∧ t.get? here ≠ some .directory ∧
      t' = t.put here (.file content) := by
  constructor
  · intro h
    obtain ⟨here, _, htarget, hput⟩ := returns_bind.mp h
    rw [Returns, outcome_target, Prod.mk.injEq] at htarget
    obtain ⟨hlocate, rfl⟩ := htarget
    replace hput := returns_get_bind.mp hput
    refine ⟨here, hlocate, ?_⟩
    split at hput
    · exact absurd hput not_returns_throw
    · next hnot => exact ⟨fun he => hnot he, (returns_modify.mp hput).symm⟩
  · rintro ⟨here, hlocate, hfile, rfl⟩
    exact returns_writeFile hlocate hfile

/-- A file is moved exactly if the path can be followed and leads to no directory. -/
theorem returns_rename_iff (hnode : t.get? source = some node) :
    Returns (rename source p) t v t' ↔
      ∃ here, t.locate p = .ok here ∧ t.get? here ≠ some .directory ∧
        t' = (t.erase source).put here node := by
  constructor
  · intro h
    obtain ⟨here, _, htarget, hmove⟩ := returns_bind.mp h
    rw [Returns, outcome_target, Prod.mk.injEq] at htarget
    obtain ⟨hlocate, rfl⟩ := htarget
    replace hmove := returns_get_bind.mp hmove
    replace hmove := returns_get_bind.mp hmove
    rw [hnode] at hmove
    refine ⟨here, hlocate, ?_⟩
    split at hmove
    · exact absurd hmove not_returns_throw
    · next found hfound hnot =>
      cases hfound
      exact ⟨fun he => hnot he, (returns_modify.mp hmove).symm⟩
    · exact absurd hmove not_returns_throw
  · rintro ⟨here, hlocate, hnot, rfl⟩
    refine returns_bind.mpr ⟨here, t, ?_, returns_get_bind.mpr ?_⟩
    · rw [Returns, outcome_target, hlocate]
    · refine returns_get_bind.mpr ?_
      rw [hnode]
      split
      · next hdirectory => exact absurd hdirectory hnot
      · next found hfound _ =>
        cases hfound
        exact returns_modify.mpr rfl
      · next hfound _ => cases hfound

/-! ### Replacing -/

/-- **A file can be put where a path leads**: its directory is there, and the path can be followed and
leads to no directory. -/
structure Replaceable (t : FileTree) (p : Path) : Prop where
  directory : t.stat ⟨1, Path.normalize t.workingDirectory p.parent⟩ = some .directory
  file : ∃ here, t.locate p = .ok here ∧ t.get? here ≠ some .directory

/-- What is replaced can be. -/
theorem replaceable_of_returns (h : Returns (replaceFile p content) t v t') :
    t.Replaceable p := by
  replace h := returns_get_bind.mp h
  dsimp only at h
  split at h
  · exact absurd h not_returns_throw
  next name hname =>
  obtain ⟨_, t₁, hwrite, h⟩ := returns_bind.mp h
  obtain ⟨source, hlocate, hnot, rfl⟩ := returns_writeFile_iff.mp hwrite
  refine ⟨stat_of_locate_concat hlocate, ?_⟩
  rcases returns_tryCatch.mp h with hmove | ⟨fault, t₂, -, h⟩
  · obtain ⟨node, hnode, -⟩ := rename_returns hmove
    obtain ⟨here, hhere, hdirectory, -⟩ := (returns_rename_iff hnode).mp hmove
    have hsame (there : Location) : (t.put source (.file content)).get? there = some .directory ↔
        t.get? there = some .directory := get?_put_eq_directory hnot there
    exact ⟨here, (locate_congr (put_workingDirectory _ _ _) hsame).mp hhere,
      mt (hsame here).mpr hdirectory⟩
  · exact absurd h not_returns_bind_throw

/-- **A file is replaced exactly if it can be.** -/
theorem returns_replaceFile_iff (hup : Path.up ∉ t.workingDirectory) :
    (∃ t', Returns (replaceFile p content) t () t') ↔ t.Replaceable p := by
  constructor
  · rintro ⟨t', h⟩
    exact replaceable_of_returns h
  · rintro ⟨hdirectory, here, hhere, hnot⟩
    generalize hparent : Path.normalize t.workingDirectory p.parent = directory at hdirectory
    have hupDirectory : Path.up ∉ directory := hparent ▸ Path.up_not_mem_normalize hup p.parent
    obtain ⟨name, hname⟩ := exists_freeName t directory p.name
    have hfree := freeName_eq_some hname
    -- the new file stands where its name was found to be free
    have hlocate : t.locate ⟨1, directory ++ [name]⟩ = .ok (directory ++ [name]) := by
      rw [locate_concat hdirectory (ne_up_of_freeName hname).symm,
        Path.normalize_of_not_mem _ hupDirectory]
      rfl
    have hempty : t.get? (directory ++ [name]) ≠ some .directory := by
      rw [hfree]
      exact Option.some_ne_none _ |>.symm
    have hsame (there : Location) :
        (t.put (directory ++ [name]) (.file content)).get? there = some .directory ↔
          t.get? there = some .directory := get?_put_eq_directory hempty there
    have hnode : (t.put (directory ++ [name]) (.file content)).get? (directory ++ [name]) =
        some (.file content) := by
      rw [get?_put (by simp), if_pos rfl]
    refine ⟨((t.put (directory ++ [name]) (.file content)).erase (directory ++ [name])).put here
      (.file content), returns_get_bind.mpr ?_⟩
    dsimp only
    rw [hparent, hname]
    refine returns_bind.mpr ⟨(), _, returns_writeFile hlocate hempty, ?_⟩
    refine returns_tryCatch.mpr (.inl ((returns_rename_iff hnode).mpr ⟨here, ?_, ?_, rfl⟩))
    · exact (locate_congr (put_workingDirectory _ _ _) hsame).mpr hhere
    · exact mt (hsame here).mp hnot

/-- **The path of a file that was replaced leads to its content.** -/
theorem stat_of_replaceFile (h : Returns (replaceFile p content) t v t') :
    t'.stat p = some (.file content) := by
  obtain ⟨here, hlocate, hnot⟩ := (replaceable_of_returns h).file
  obtain ⟨hworking, hnodes⟩ := get?_of_replaceFile h
  rw [← locate_eq hlocate] at hnodes
  have hdirectories : ∀ there, t.get? there = some .directory → t'.get? there = some .directory := by
    intro there hthere
    rw [hnodes, if_neg, hthere]
    rintro rfl
    exact hnot hthere
  rw [stat, locate_mono hworking hdirectories hlocate]
  dsimp only
  rw [hnodes, if_pos rfl]

end FileTree

/-! ### Descriptors -/

namespace ProjectDescriptor

/-- The file that a path stands for: in a directory the one of the usual name, and otherwise that at
the path itself. -/
def IsFileFor (t : FileTree) (path file : Path) : Prop :=
  (t.stat path = some .directory ∧ file = path.joinText "pom.xml".toList) ∨
    (t.stat path ≠ some .directory ∧ file = path)

/-- **The ways in which writing a descriptor ends.** -/
inductive WriteOutcome (d : ProjectDescriptor) (path : Path) (t : FileTree) :
    Except DescriptorFault Path × FileTree → Prop
  /-- The file can be put in its place.  Then it holds the rendered descriptor, and nothing else has
  changed. -/
  | written {file : Path} {text : Text} {t' : FileTree} (hfile : IsFileFor t path file)
      (hrender : d.render = .ok text) (hreplace : t.Replaceable file)
      (hread : t'.stat file = some (.file (Utf8.encode text)))
      (hworking : t'.workingDirectory = t.workingDirectory)
      (hothers : ∀ there, there ≠ Path.normalize t.workingDirectory file →
        t'.get? there = t.get? there) :
      WriteOutcome d path t (.ok file, t')
  /-- The descriptor cannot be rendered, and nothing changes. -/
  | notRendered {cause : RenderFault} (hrender : d.render = .error cause) :
      WriteOutcome d path t (.error (.render cause), t)
  /-- The file cannot be put in its place, and nothing changes. -/
  | notWritten {file : Path} {text : Text} {cause : FileFault} (hfile : IsFileFor t path file)
      (hrender : d.render = .ok text) (hreplace : ¬t.Replaceable file) :
      WriteOutcome d path t (.error (.write ⟨file, cause⟩), t)

variable {t : FileTree} {path : Path}

theorem isFileFor_fileAt (t : FileTree) (path : Path) : IsFileFor t path (fileAt path t) := by
  have hdirectory : t.isDirectory path = true ↔ t.stat path = some .directory := by
    unfold FileTree.isDirectory
    rcases t.stat path with _ | _ | content | entries <;> simp [Node.isDirectory]
  unfold fileAt
  split
  · next h => exact .inl ⟨hdirectory.mp h, rfl⟩
  · next h => exact .inr ⟨mt hdirectory.mpr h, rfl⟩

/-- **A descriptor is written as a whole or not at all**, whatever stands where the path leads.  The
working directory is a location, spelled without pairs of dots. -/
theorem writeTo_atomic (d : ProjectDescriptor) (path : Path) {t : FileTree}
    (hup : Path.up ∉ t.workingDirectory) : d.WriteOutcome path t (d.writeTo path t) := by
  have hfile := isFileFor_fileAt t path
  unfold writeTo
  dsimp only
  split
  · next cause hrender => exact .notRendered hrender
  · next text hrender =>
    split
    · next t' hreplace =>
      have hreturns : Returns (FileTree.replaceFile (fileAt path t) (Utf8.encode text)) t () t' :=
        hreplace
      obtain ⟨hworking, hnodes⟩ := FileTree.get?_of_replaceFile hreturns
      refine .written hfile hrender (FileTree.replaceable_of_returns hreturns)
        (FileTree.stat_of_replaceFile hreturns) hworking fun there hthere => ?_
      rw [hnodes, if_neg hthere]
    · next cause t' hfails =>
      obtain rfl := FileTree.replaceFile_error (Path.up_not_mem_normalize hup _) hfails
      refine .notWritten hfile hrender fun hreplace => ?_
      obtain ⟨t'', hreturns⟩ := (FileTree.returns_replaceFile_iff hup).mpr hreplace
      rw [Returns, outcome, hfails] at hreturns
      cases hreturns

/-- A descriptor of nothing but an identity. -/
def bare : ProjectDescriptor :=
  { identity := ⟨"g".toList, "a".toList, "1".toList, "jar".toList⟩
    properties := [], dependencies := ⟨[]⟩, plugins := [], repositories := [], managedPlugins := [] }

/-- A directory with a node under the usual name of a descriptor, and a file beside it. -/
def outputTree (node : Node) : FileTree where
  nodes := [(["out".toList], .directory), (["out".toList, "pom.xml".toList], node),
    (["keep".toList], .file [1])]
  workingDirectory := []

theorem render_bare : ∃ text, bare.render = .ok text := by
  have hrender : bare.render.toBool = true := by decide +kernel
  cases h : bare.render with
  | error cause =>
    rw [h] at hrender
    cases hrender
  | ok text => exact ⟨text, rfl⟩

theorem isFileFor_outputTree {node : Node} {file : Path}
    (h : IsFileFor (outputTree node) (.ofString "out") file) : file = .ofString "out/pom.xml" := by
  rcases h with ⟨-, rfl⟩ | ⟨hnot, -⟩
  · rfl
  · exact absurd rfl hnot

theorem writeTo_atomic_sample :
    (∃ text t', bare.render = .ok text ∧
      bare.writeTo (.ofString "out") (outputTree (.file [2])) = (.ok (.ofString "out/pom.xml"), t') ∧
      t'.stat (.ofString "out/pom.xml") = some (.file (Utf8.encode text)) ∧
      t'.get? ["keep".toList] = some (.file [1])) ∧
    ∃ fault, bare.writeTo (.ofString "out") (outputTree .directory) =
      (.error fault, outputTree .directory) := by
  obtain ⟨text, hrendered⟩ := render_bare
  have hfile := writeTo_atomic bare (.ofString "out") (t := outputTree (.file [2])) (by decide)
  have hdirectory := writeTo_atomic bare (.ofString "out") (t := outputTree .directory) (by decide)
  constructor
  · generalize bare.writeTo (.ofString "out") (outputTree (.file [2])) = result at hfile ⊢
    cases hfile with
    | written hfor hrender _ hread _ hothers =>
      obtain rfl := isFileFor_outputTree hfor
      exact ⟨_, _, hrender, rfl, hread, hothers _ (by decide)⟩
    | notRendered hrender => cases hrendered.symm.trans hrender
    | notWritten hfor _ hreplace =>
      obtain rfl := isFileFor_outputTree hfor
      exact absurd ⟨by decide, _, rfl, by decide⟩ hreplace
  · generalize bare.writeTo (.ofString "out") (outputTree .directory) = result at hdirectory ⊢
    cases hdirectory with
    | written hfor _ hreplace =>
      obtain rfl := isFileFor_outputTree hfor
      obtain ⟨here, hlocate, hnot⟩ := hreplace.file
      cases hlocate
      exact absurd (by decide) hnot
    | notRendered hrender => cases hrendered.symm.trans hrender
    | notWritten => exact ⟨_, rfl⟩

end ProjectDescriptor

end Unjar
