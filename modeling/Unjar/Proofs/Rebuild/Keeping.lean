import Unjar.Proofs.Confinement
import Unjar.Proofs.Rebuild.Scanning

/-!
What the parts of a run do, however they end.

A run that fails leaves what it has done so far.  So each part of a run is described by an equation
for its end, be it a result or a fault, and what holds of a run however it ends is a relation
between the state before and the state after that every part keeps.  For the files such a relation
says where anything may have happened: sources and resources are written beneath their directories,
and directories are made on the way.

Main definition: `Unjar.Rebuild.rebuildInto` — what a run does once its archive is open.

Main results:

* `Unjar.Rebuild.outcome_run`, `Unjar.Rebuild.outcome_inPhase` — how a run and a phase end;
* `Unjar.Rebuild.keeps_scan` — **what every entry keeps, the scan keeps**;
* `Unjar.Placement.confined_accept`, `Unjar.Placement.confined_copyResource`,
  `Unjar.ProjectLayout.confined_recreate`, `Unjar.ProjectDescriptor.confined_writeTo` — what is
  written where.
-/

set_option autoImplicit false

namespace Unjar

/-! ### Writing -/

section

variable {here : Location} {made changed : Set Location} {file : Path} {content : Bytes}

namespace Placement

theorem confined_writeWithParents (hmade : Path.way here file ⊆ made ∪ changed)
    (hchanged : Path.normalize here file ∈ changed) :
    Keeps (FileTree.ConfinedFrom here made changed) (writeWithParents file content) := by
  refine Keeps.bind .trans ?_ fun _ => ?_
  · exact FileTree.confined_makeDirectories ((Path.way_parent here file).trans hmade)
  · exact FileTree.confined_writeFile hchanged

theorem confined_write (hmade : Path.way here file ⊆ made ∪ changed)
    (hchanged : Path.normalize here file ∈ changed) (t : FileTree) :
    FileTree.ConfinedFrom here made changed t (write file content t).2 :=
  confined_writeWithParents hmade hchanged t

/-- **A source text** is placed beneath the directory of sources. -/
theorem confined_accept (p : Placement) {text : Text}
    (hmade : Path.way here (p.sourceRoot.join ⟨0, sourceNames text⟩) ⊆ made ∪ changed)
    (hbeneath : ∀ there, Path.isBeneath there (Path.normalize here p.sourceRoot) = true →
      there ∈ changed) (t : FileTree) :
    FileTree.ConfinedFrom here made changed t (p.accept text t).2.2 := by
  unfold accept
  split
  · exact .refl t
  · dsimp only
    rw [destinationIn_eq]
    have hwrite : FileTree.ConfinedFrom here made changed t
        (write (p.sourceRoot.join ⟨0, sourceNames text⟩) (Utf8.encode (endLine text)) t).2 := by
      refine confined_write hmade (hbeneath _ ?_) t
      rw [normalize_source]
      exact Path.isBeneath_iff.mpr ⟨_, sourceNames_ne_nil text, rfl⟩
    split
    · next fault t₁ hw => rwa [hw] at hwrite
    · next t₁ hw => rwa [hw] at hwrite

/-- **A resource** is placed beneath the directory of resources, if its path leads there; on the
way to it directories may be made. -/
theorem confined_copyResource (p : Placement) {relativePath : Text}
    (hmade : ∀ there,
      resourceLocation? (Path.normalize here p.resourceRoot) relativePath = some there →
        Path.way here (p.resourceRoot.joinText relativePath) ⊆ made ∪ changed)
    (hbeneath : ∀ there, Path.isBeneath there (Path.normalize here p.resourceRoot) = true →
      there ∈ changed) (t : FileTree) :
    FileTree.ConfinedFrom here made changed t (p.copyResource relativePath content t).2.2 := by
  rintro rfl
  have hjoin : Path.normalize t.workingDirectory (p.resourceRoot.joinText relativePath) =
      Path.normalize (Path.normalize t.workingDirectory p.resourceRoot)
        (Path.ofText relativePath) := Path.normalize_join _ _ _
  unfold copyResource
  dsimp only
  split
  · exact .refl t
  · next hb =>
    have hin : Path.isBeneath (Path.normalize t.workingDirectory
        (p.resourceRoot.joinText relativePath))
        (Path.normalize t.workingDirectory p.resourceRoot) = true := by simpa using hb
    have hwrite : FileTree.Confined made changed t
        (write (p.resourceRoot.joinText relativePath) content t).2 := by
      refine confined_write (hmade (Path.normalize t.workingDirectory
        (p.resourceRoot.joinText relativePath)) ?_) (hbeneath _ hin) t rfl
      rw [hjoin] at hin ⊢
      exact if_pos hin
    split
    · next fault t₁ hw => rwa [hw] at hwrite
    · next t₁ hw => rwa [hw] at hwrite

end Placement

/-- **The directories of a project** are made anew at its place and on the way there. -/
theorem ProjectLayout.confined_recreate {project : Path} (hparts : project.parts ≠ [])
    (hname : project.name ≠ Path.up) (hmade : Path.way here project ⊆ made ∪ changed)
    (hbeneath : ∀ there, Path.normalize here project <+: there → there ∈ changed) :
    Keeps (FileTree.ConfinedFrom here made changed) (recreate project) := by
  have hmake : Keeps (FileTree.ConfinedFrom here made changed) (directories.forM fun directory =>
      FileTree.makeDirectories (project.join directory)) := by
    refine .forM .refl .trans fun directory hdirectory => FileTree.confined_makeDirectories ?_
    have hplain : directory.root = 0 ∧ Path.up ∉ directory.parts := by
      revert directory
      decide
    rw [Path.join, if_pos hplain.1]
    refine (Path.way_append here project directory.parts).trans (Set.union_subset hmade ?_)
    exact fun there hthere => .inr (hbeneath there (Path.prefix_of_mem_way hplain.2 hthere))
  have hremove : Keeps (FileTree.ConfinedFrom here made changed) (FileTree.removeTree project) :=
    FileTree.confined_removeTree hparts hname hbeneath
  refine Keeps.bind .trans (fun t => .refl t) fun t => ?_
  dsimp only
  split
  · exact hremove.bind .trans fun _ => hmake
  · exact hmake

theorem ProjectLayout.confined_create {project : Path} (hparts : project.parts ≠ [])
    (hname : project.name ≠ Path.up) (hmade : Path.way here project ⊆ made ∪ changed)
    (hbeneath : ∀ there, Path.normalize here project <+: there → there ∈ changed)
    (t : FileTree) : FileTree.ConfinedFrom here made changed t (create project t).2 :=
  confined_recreate hparts hname hmade hbeneath t

/-- **A descriptor** is written to its file. -/
theorem ProjectDescriptor.confined_writeTo (d : ProjectDescriptor) {path : Path} {t : FileTree}
    (hup : Path.up ∉ Path.normalize here (fileAt path t).parent)
    (hchanged : Path.normalize here (fileAt path t) ∈ changed) :
    FileTree.ConfinedFrom here made changed t (d.writeTo path t).2 := by
  unfold writeTo
  dsimp only
  split
  · exact .refl t
  · next text htext =>
    have hreplace : FileTree.ConfinedFrom here made changed t
        (outcome (FileTree.replaceFile (fileAt path t) (Utf8.encode text)) t).2 :=
      FileTree.confined_replaceFile hup hchanged t
    rcases hr : outcome (FileTree.replaceFile (fileAt path t) (Utf8.encode text)) t with
      ⟨cause | u, t₁⟩
    · rw [hr] at hreplace
      rw [show (FileTree.replaceFile (fileAt path t) (Utf8.encode text)).run.run t = _ from hr]
      exact hreplace
    · rw [hr] at hreplace
      rw [show (FileTree.replaceFile (fileAt path t) (Utf8.encode text)).run.run t = _ from hr]
      exact hreplace

end

namespace Rebuild

/-! ### How the parts of a run end -/

/-- **The bytes of an entry**: what reading it gives. -/
def bytesOf (content : ArchiveContent) (entry : ArchiveEntry) : Bytes :=
  (Archive.read? content entry.path).getD []

/-- They are its own, unless a later entry has its name. -/
theorem bytesOf_eq {content before after : ArchiveContent} {entry : ArchiveEntry} {bytes : Bytes}
    (hcontent : content = before ++ (entry.path, bytes) :: after)
    (hlast : entry.path ∉ after.map Prod.fst) : bytesOf content entry = bytes := by
  have hafter : after.reverse.find? (fun other => other.1 == entry.path) = none := by
    rw [List.find?_eq_none]
    intro other hother he
    exact hlast (List.mem_map.mpr ⟨other, List.mem_reverse.mp hother, beq_iff_eq.mp he⟩)
  simp [bytesOf, Archive.read?, hcontent, hafter]

section

variable {s : RebuildState} {α ε : Type}

/-- **How a phase ends**: as its part of the run does, and so it is recorded. -/
theorem outcome_inPhase (name : String) (body : Rebuilding (α × Text)) :
    outcome (inPhase name body) s =
      let entered := s.progress.enter name.toList
      match outcome body { s with progress := entered.2 } with
      | (.ok (a, detail), t) =>
        (.ok a, { t with progress := (t.progress.describe entered.1 detail).complete entered.1 })
      | (.error fault, t) =>
        (.error fault, { t with progress := t.progress.fail entered.1 fault.message }) := by
  simp only [inPhase, outcome_bind, outcome_modifyGet, outcome_tryCatch]
  rcases outcome body { s with progress := (s.progress.enter name.toList).2 } with
    ⟨fault | ⟨a, detail⟩, t⟩
  · rfl
  · rfl

theorem outcome_writing (faultOf : ε → RebuildFault) (act : FileTree → Except ε α × FileTree) :
    outcome (writing faultOf act) s =
      ((act s.tree).1.mapError faultOf, { s with tree := (act s.tree).2 }) := by
  simp only [writing, outcome_bind, outcome_get, outcome_modify]
  rcases act s.tree with ⟨fault | a, t⟩ <;> rfl

theorem outcome_placing (project : Path)
    (act : Placement → FileTree → Except WriteFault α × Placement × FileTree) :
    outcome (placing project act) s =
      let (result, placement, tree) := act (s.placement project) s.tree
      ((result.mapError RebuildFault.write).map fun _ => (), { s with
        registry := placement.registry
        resourcesCopied := placement.resourcesCopied
        tree := tree }) := by
  simp only [placing, outcome_bind, outcome_get]
  rcases act (s.placement project) s.tree with ⟨fault | a, p, t⟩ <;> rfl

theorem outcome_openArchive (job : RebuildJob) :
    outcome (openArchive job) s =
      ((ArchiveReader.contentOf job.settings job.archive s.tree).mapError .archive, s) := by
  simp only [openArchive, outcome_bind, outcome_get]
  rcases ArchiveReader.contentOf job.settings job.archive s.tree with fault | content <;> rfl

theorem outcome_examineEntry (content : ArchiveContent) (entry : ArchiveEntry) (bytes : Bytes) :
    outcome (examineEntry content entry bytes) s =
      match s.findings.examine content entry bytes with
      | .ok finding => (.ok finding, { s with findings := s.findings.record entry finding })
      | .error fault => (.error (.encoding fault), s) := by
  simp only [examineEntry, outcome_bind, outcome_get]
  rcases s.findings.examine content entry bytes with fault | finding <;> rfl

/-- Without a decompiler its phase is left out. -/
def skipDecompiling (job : RebuildJob) : Rebuilding Unit :=
  if job.decompiler.isNone then
    note (·.skip "decompile".toList "no decompiler configured".toList)
  else pure ()

/-- What a run does once its archive is open. -/
def rebuildInto (job : RebuildJob) (project : Path) (content : ArchiveContent) :
    Rebuilding RebuildReport := do
  scaffold project
  skipDecompiling job
  fill job project content

/-- **How a run ends**: an archive that cannot be opened ends it before anything is done. -/
theorem outcome_run {job : RebuildJob} {output : Path} (houtput : job.output = some output) :
    outcome (run job) s =
      match ArchiveReader.contentOf job.settings job.archive s.tree with
      | .ok content => outcome (rebuildInto job (projectIn job output) content) s
      | .error fault => (.error (.archive fault), s) := by
  unfold run
  rw [houtput]
  dsimp only
  rw [outcome_bind, outcome_openArchive]
  rcases ArchiveReader.contentOf job.settings job.archive s.tree with fault | content
  · rfl
  · dsimp only [Except.mapError]
    unfold rebuildInto skipDecompiling
    split <;> rfl

end

/-! ### What is kept -/

/-- What a phase does to the files, its part of the run does. -/
theorem keeps_inPhase {R : FileTree → FileTree → Prop} {α : Type} {name : String}
    {body : Rebuilding (α × Text)} (h : Keeps (fun s s' => R s.tree s'.tree) body) :
    Keeps (fun s s' => R s.tree s'.tree) (inPhase name body) := by
  intro s
  have hbody := h { s with progress := (s.progress.enter name.toList).2 }
  rw [outcome_inPhase]
  dsimp only
  split
  · next hr => rwa [hr] at hbody
  · next hr => rwa [hr] at hbody

section

variable {R : RebuildState → RebuildState → Prop} {decompiler : Option Decompiler}
  {project : Path} {content : ArchiveContent}

theorem keeps_writeEntry {entry : ArchiveEntry} {bytes : Bytes} {finding : Finding}
    (trans : ∀ {s t u}, R s t → R t u → R s u)
    (quiet : ∀ {s s'}, s'.tree = s.tree → s'.progress = s.progress → R s s')
    (source : ∀ text, Keeps R (placing project (·.accept text)))
    (resource : finding = .resource →
      Keeps R (placing project (·.copyResource entry.relativePath bytes))) :
    Keeps R (writeEntry decompiler project entry bytes finding) := by
  unfold writeEntry
  split
  · split
    · refine Keeps.bind trans (fun _ => quiet rfl rfl) fun s => ?_
      refine Keeps.bind trans (fun _ => quiet rfl rfl) fun _ => ?_
      refine Keeps.bind trans ?_ fun _ => ?_
      · refine .forM (fun _ => quiet rfl rfl) trans fun text _ => ?_
        exact Keeps.bind trans (fun _ => quiet rfl rfl) fun _ => source _
      · split <;> exact fun _ => quiet rfl rfl
    · exact fun _ => quiet rfl rfl
  · exact resource rfl
  · exact fun _ => quiet rfl rfl

theorem keeps_scanEntry {entry : ArchiveEntry} (trans : ∀ {s t u}, R s t → R t u → R s u)
    (quiet : ∀ {s s'}, s'.tree = s.tree → s'.progress = s.progress → R s s')
    (source : ∀ text, Keeps R (placing project (·.accept text)))
    (resource : entry.kind = .resource → ∀ bytes,
      Keeps R (placing project (·.copyResource entry.relativePath bytes))) :
    Keeps R (scanEntry decompiler (some project) content entry) := by
  intro s
  simp only [scanEntry, outcome_bind, outcome_examineEntry]
  generalize (Archive.read? content entry.path).getD [] = bytes
  cases hexamine : s.findings.examine content entry bytes with
  | error fault => exact quiet rfl rfl
  | ok finding =>
      -- only the kind of the entry makes it a resource
      have hwrite : Keeps R (writeEntry decompiler project entry bytes finding) := by
        refine keeps_writeEntry trans quiet source ?_
        rintro rfl
        exact resource (examine_eq_ok hexamine) bytes
      exact trans (t := { s with findings := s.findings.record entry finding }) (quiet rfl rfl)
        (hwrite _)

/-- **What every entry keeps, the scan keeps.**  A relation that looks at the files and at the record
of phases alone is kept by the scan if placing a source and copying a resource keep it. -/
theorem keeps_scan {job : RebuildJob} (trans : ∀ {s t u}, R s t → R t u → R s u)
    (quiet : ∀ {s s'}, s'.tree = s.tree → s'.progress = s.progress → R s s')
    (source : ∀ text, Keeps R (placing project (·.accept text)))
    (resource : ∀ entry ∈ Archive.entries job.settings content, entry.kind = .resource →
      ∀ bytes, Keeps R (placing project (·.copyResource entry.relativePath bytes))) :
    Keeps R (scan job (some project) content) :=
  .forM (fun _ => quiet rfl rfl) trans fun entry hentry =>
    keeps_scanEntry trans quiet source (resource entry hentry)

end

end Rebuild

end Unjar
