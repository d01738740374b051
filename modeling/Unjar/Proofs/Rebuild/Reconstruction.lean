import Mathlib.Data.Set.Card
import Unjar.Proofs.OrderedMap
import Unjar.Proofs.Rebuild.Scanning

/-!
What a run that returns has left beneath its project.

A run removes what stood under the name of the project, makes the directories anew, fills them while
it scans the archive, and writes the descriptor last.  So when it returns, the files beneath the
project are the descriptor, the sources and the resources, each once: nothing of an earlier run is
left, whatever stood there, and no part of the project overwrites another.  Only a run that returns
is spoken of; one that fails may have left anything of this half done.

Main definitions:

* `Unjar.Rebuild.Reconstruction` — **the reconstructed project**.

Main results:

* `Unjar.Rebuild.recreate_returns` — no file is left where directories are made anew;
* `Unjar.Rebuild.Standing.files_of_writes` — the files once the descriptor has been written;
* `Unjar.Rebuild.Standing.encard_sources` — the number of files among the sources;
* `Unjar.Rebuild.reconstruction_of_run` — **a run that returns has left the reconstructed project**.
-/

set_option autoImplicit false

namespace Unjar.Rebuild

/-! ### The directories of a project -/

section

variable {here : Location} {project : Path} {t t' : FileTree} {s s' : RebuildState} {u : Unit}

/-- **Where directories are made anew**, no file is left. -/
theorem recreate_returns (ht : t.WellFormed) (hup : Path.up ∉ project.parts)
    (hne : Path.normalize t.workingDirectory project ≠ [])
    (h : Returns (ProjectLayout.recreate project) t u t') :
    t'.workingDirectory = t.workingDirectory ∧
      ∀ there, Path.normalize t.workingDirectory project <+: there → t'.file? there = none := by
  replace h := returns_get_bind.mp h
  have hmade : Keeps FileTree.SameFiles
      (ProjectLayout.directories.forM fun directory =>
        FileTree.makeDirectories (project.join directory)) :=
    .forM .refl .trans fun _ _ => FileTree.keeps_makeDirectories _
  dsimp only at h
  split at h
  · obtain ⟨_, t₁, hremove, hmake⟩ := returns_bind.mp h
    obtain rfl := FileTree.removeTree_returns hremove
    have hsame := hmade.of_returns hmake
    refine ⟨hsame.working, fun there hthere => ?_⟩
    rw [hsame.files]
    apply FileTree.file?_of_get?_eq_none
    rw [FileTree.get?_prune t hne, if_pos hthere]
  · next hexists =>
    have hsame := hmade.of_returns h
    refine ⟨hsame.working, fun there hthere => ?_⟩
    rw [hsame.files]
    apply FileTree.file?_of_get?_eq_none
    exact FileTree.get?_of_not_exists ht hup (by simpa using hexists) hthere

/-- After the directories have been made, the scan begins with nothing. -/
theorem standing_of_scaffold {decompiler : Option Decompiler} (ht : s.tree.WellFormed)
    (hup : Path.up ∉ project.parts)
    (hne : Path.normalize s.tree.workingDirectory project ≠ [])
    (hregistry : s.registry = .empty) (hcount : s.resourcesCopied = 0) (hpushed : s.pushed = [])
    (hdecompiled : s.decompiled = []) (h : Returns (scaffold project) s u s') :
    Standing s.tree.workingDirectory project s'.pushed [] s' ∧ Handed decompiler [] s' := by
  obtain ⟨before, detail, s₁, after, hbody, rfl⟩ := inPhase_returns h
  obtain ⟨_, s₂, hwriting, hbody⟩ := returns_bind.mp hbody
  obtain ⟨-, rfl⟩ := returns_pure.mp hbody
  obtain ⟨t, hcreate, rfl⟩ := writing_returns hwriting
  have hrecreate := returns_of_mapError (x := ProjectLayout.recreate project) hcreate
  obtain ⟨hwork, hnone⟩ := recreate_returns ht hup hne hrecreate
  dsimp only
  rw [hpushed]
  refine ⟨⟨hwork, fun there hthere => ?_, ?_, by simp, hcount⟩, fun _ => hdecompiled, ?_⟩
  · obtain ⟨rest, -, rfl⟩ := Path.isBeneath_iff.mp hthere
    exact hnone _ (List.prefix_append _ _)
  · simp [hregistry, WriteRegistry.empty]
  · cases decompiler with
    | none => simpa [hpushed] using .none []
    | some d => simpa [hpushed] using .start d

/-! ### The descriptor -/

theorem writeTo_eq_ok {d : ProjectDescriptor} {path file : Path}
    (h : d.writeTo path t = (.ok file, t')) :
    file = ProjectDescriptor.fileAt path t ∧ ∃ text, d.render = .ok text ∧
      t.Writes (Path.normalize t.workingDirectory file) (Utf8.encode text) t' := by
  unfold ProjectDescriptor.writeTo at h
  dsimp only at h
  split at h
  · simp at h
  · next text htext =>
    split at h
    · next t₁ hreplace =>
      simp only [Prod.mk.injEq, Except.ok.injEq] at h
      obtain ⟨rfl, rfl⟩ := h
      exact ⟨rfl, text, htext, FileTree.replaceFile_returns hreplace⟩
    · simp at h

theorem isName_fileName : Path.IsName ProjectDescriptor.fileName :=
  ⟨by decide, by decide, by decide⟩

/-- The descriptor stands in the directory of the project, or in one of its own name there. -/
theorem normalize_fileAt (here : Location) (project : Path) (t : FileTree) :
    ∃ rest, Path.normalize here
        (ProjectDescriptor.fileAt (project.joinText ProjectDescriptor.fileName) t) =
      Path.normalize here project ++ ProjectDescriptor.fileName :: rest := by
  have hup : ProjectDescriptor.fileName ≠ Path.up := by decide
  unfold ProjectDescriptor.fileAt
  split
  · refine ⟨[ProjectDescriptor.fileName], ?_⟩
    rw [Path.normalize_joinText _ _ isName_fileName hup,
      Path.normalize_joinText _ _ isName_fileName hup]
    simp
  · exact ⟨[], Path.normalize_joinText _ _ isName_fileName hup⟩

/-- Writing the descriptor writes its file and nothing else. -/
theorem writeDescriptor_returns {job : RebuildJob} {dependencies : DependencySet} {file : Path}
    (h : Returns (writeDescriptor job project dependencies) s file s') :
    ∃ pom t progress, s' = { s with tree := t, progress } ∧
      (descriptorOf job dependencies s.findings.embedded).render = .ok pom ∧
      s.tree.Writes (Path.normalize s.tree.workingDirectory file) (Utf8.encode pom) t ∧
      ∃ rest, Path.normalize s.tree.workingDirectory file =
        Path.normalize s.tree.workingDirectory project ++ ProjectDescriptor.fileName :: rest := by
  obtain ⟨before, detail, s₁, after, hbody, rfl⟩ := inPhase_returns h
  replace hbody := returns_get_bind.mp hbody
  obtain ⟨written, s₂, hwriting, hbody⟩ := returns_bind.mp hbody
  obtain ⟨hfile, rfl⟩ := returns_pure.mp hbody
  obtain ⟨rfl, -⟩ := Prod.mk.inj hfile
  obtain ⟨t, hwrite, rfl⟩ := writing_returns hwriting
  obtain ⟨hat, pom, hpom, hw⟩ := writeTo_eq_ok hwrite
  refine ⟨pom, t, after, rfl, hpom, hw, ?_⟩
  rw [hat]
  exact normalize_fileAt _ _ _

end

/-! ### Where things stand -/

section

variable {here there : Location} {project : Path} {rest : List Text}

theorem isBeneath_of_sourcesAt (h : Path.isBeneath there (sourcesAt here project) = true) :
    Path.isBeneath there (Path.normalize here project) = true := by
  rw [sourcesAt_eq] at h
  exact Path.isBeneath_of_append h

theorem isBeneath_of_resourcesAt (h : Path.isBeneath there (resourcesAt here project) = true) :
    Path.isBeneath there (Path.normalize here project) = true := by
  rw [resourcesAt_eq] at h
  exact Path.isBeneath_of_append h

/-- The descriptor is neither a source nor a resource. -/
theorem descriptor_not_isBeneath
    (h : there = Path.normalize here project ++ ProjectDescriptor.fileName :: rest) :
    ¬Path.isBeneath there (sourcesAt here project) = true ∧
      ¬Path.isBeneath there (resourcesAt here project) = true := by
  subst h
  rw [Path.isBeneath_iff, Path.isBeneath_iff, sourcesAt_eq, resourcesAt_eq, mainSources_eq,
    mainResources_eq]
  constructor
  all_goals
    rintro ⟨rest', -, hr⟩
    rw [List.append_assoc, List.append_cancel_left_eq] at hr
    have hname : ProjectDescriptor.fileName = "src".toList := (List.cons.inj hr).1
    exact absurd hname (by decide)

end

/-! ### The reconstructed project -/

/-- **The reconstructed project**: what a run has left that was given a job and a tree of files,
read a certain content from the archive, and returned a report. -/
structure Reconstruction (job : RebuildJob) (tree : FileTree) (content : ArchiveContent)
    (pom : Text) (report : RebuildReport) (s : RebuildState) : Prop where
  /-- The content is that of the archive. -/
  opened : ArchiveReader.contentOf job.settings job.archive tree = .ok content
  /-- The text is that of the descriptor. -/
  rendered : (descriptorOf job report.dependencies s.findings.embedded).render = .ok pom
  /-- The texts that were pushed are what the decompiler makes of the classes. -/
  pushes : Pushes job.decompiler (readableClasses job.settings content) s.pushed
  /-- Beneath the project stand the descriptor, the last source and the last resource of each
  place, and no other file. -/
  files : ∀ here node,
    (Path.isBeneath here (Path.normalize tree.workingDirectory report.project) = true ∧
        s.tree.file? here = some node) ↔
      ∃ bytes, node = .file bytes ∧
        (here = Path.normalize tree.workingDirectory report.descriptor ∧ bytes = Utf8.encode pom ∨
          lastAt (sourceFiles (sourcesAt tree.workingDirectory report.project) s.pushed) here =
            some bytes ∨
          lastAt (resourceFiles job.settings (resourcesAt tree.workingDirectory report.project)
            content) here = some bytes)
  /-- The files among the sources are counted. -/
  sourcesWritten :
    {here | Path.isBeneath here (sourcesAt tree.workingDirectory report.project) = true ∧
      (s.tree.file? here).isSome}.encard = report.sourcesWritten
  /-- The resources are counted, each time that one is copied. -/
  resourcesCopied : report.resourcesCopied =
    (resourceFiles job.settings (resourcesAt tree.workingDirectory report.project) content).length

section

variable {here : Location} {project : Path} {pushed : List Text}
  {copied : List (Location × Bytes)} {s : RebuildState}

theorem Standing.lastAt_copied (hs : Standing here project pushed copied s) {there : Location}
    (hin : Path.isBeneath there (sourcesAt here project) = true) : lastAt copied there = none :=
  lastAt_eq_none fun file hfile he =>
    not_isBeneath_resourcesAt hin (he ▸ hs.copiedInside file hfile)

theorem Standing.mem_destinations (hs : Standing here project pushed copied s) (d : Path) :
    d ∈ s.registry.destinations ↔ ∃ text ∈ pushed, Text.isAllBlank text = false ∧
      (project.join ProjectLayout.mainSources).join ⟨0, Placement.sourceNames text⟩ = d := by
  rw [WriteRegistry.destinations, List.mem_eraseDups, hs.registered]
  simp [and_assoc]

/-- Different destinations are different locations. -/
theorem Standing.injOn_destinations (hs : Standing here project pushed copied s) :
    Set.InjOn (Path.normalize here) {d | d ∈ s.registry.destinations} := by
  intro d hd d' hd' heq
  obtain ⟨text, -, -, rfl⟩ := (hs.mem_destinations d).mp hd
  obtain ⟨text', -, -, rfl⟩ := (hs.mem_destinations d').mp hd'
  rw [Placement.normalize_source, Placement.normalize_source] at heq
  -- no component of a destination is dropped or taken back
  rw [List.append_cancel_left heq]

/-- The files among the sources are those at the destinations. -/
theorem Standing.sources_eq_image (hs : Standing here project pushed copied s) :
    {there | Path.isBeneath there (sourcesAt here project) = true ∧
      (s.tree.file? there).isSome} = Path.normalize here '' {d | d ∈ s.registry.destinations} := by
  ext there
  constructor
  · rintro ⟨hin, hfile⟩
    rw [hs.files there (isBeneath_of_sourcesAt hin), hs.lastAt_copied hin, Option.or_none,
      Option.isSome_map, lastAt_isSome] at hfile
    obtain ⟨file, hf, rfl⟩ := List.mem_map.mp hfile
    obtain ⟨text, htext, rfl⟩ := List.mem_map.mp hf
    obtain ⟨hpushed, hb⟩ := List.mem_filter.mp htext
    exact ⟨_, (hs.mem_destinations _).mpr ⟨text, hpushed, by simpa using hb, rfl⟩,
      Placement.normalize_source _ _ _⟩
  · rintro ⟨d, hd, rfl⟩
    obtain ⟨text, htext, hb, rfl⟩ := (hs.mem_destinations d).mp hd
    have hsource : Placement.sourceFile (sourcesAt here project) text ∈
        sourceFiles (sourcesAt here project) pushed :=
      List.mem_map_of_mem (List.mem_filter.mpr ⟨htext, by simp [hb]⟩)
    have hin := isBeneath_sourcesAt hsource
    have hfile := hs.files _ (isBeneath_of_sourcesAt hin)
    have hlast := lastAt_isSome.mpr (List.mem_map_of_mem (f := Prod.fst) hsource)
    rw [Placement.normalize_source]
    refine ⟨hin, ?_⟩
    change (s.tree.file? (Placement.sourceFile (sourcesAt here project) text).1).isSome
    rw [hfile, Option.isSome_map, Option.isSome_or, hlast]
    rfl

/-- The number of files among the sources is that of the destinations. -/
theorem Standing.encard_sources (hs : Standing here project pushed copied s) :
    {there | Path.isBeneath there (sourcesAt here project) = true ∧
      (s.tree.file? there).isSome}.encard = s.registry.destinations.length := by
  have hnodup : s.registry.destinations.Nodup := nodup_eraseDups _
  have hlist : {d | d ∈ s.registry.destinations} = (s.registry.destinations.toFinset : Set Path) :=
    (List.coe_toFinset _).symm
  rw [hs.sources_eq_image, hs.injOn_destinations.encard_image, hlist,
    Set.encard_coe_eq_coe_finsetCard, List.toFinset_card_of_nodup hnodup]

/-- Once the descriptor has been written, it, the last source and the last resource of each place
stand beneath the project. -/
theorem Standing.files_of_writes (hs : Standing here project pushed copied s) {place : Location}
    {rest : List Text} {content : Bytes} {t : FileTree}
    (hplace : place = Path.normalize here project ++ ProjectDescriptor.fileName :: rest)
    (hw : s.tree.Writes place content t) (there : Location) (node : Node) :
    (Path.isBeneath there (Path.normalize here project) = true ∧ t.file? there = some node) ↔
      ∃ bytes, node = .file bytes ∧
        (there = place ∧ bytes = content ∨
          lastAt (sourceFiles (sourcesAt here project) pushed) there = some bytes ∨
          lastAt copied there = some bytes) := by
  obtain ⟨hnotSource, hnotResource⟩ := descriptor_not_isBeneath hplace
  constructor
  · rintro ⟨hin, hnode⟩
    rw [hw.files] at hnode
    split at hnode
    · next hthere =>
      cases hnode
      exact ⟨content, rfl, .inl ⟨hthere, rfl⟩⟩
    · rw [hs.files there hin, Option.map_eq_some_iff] at hnode
      obtain ⟨bytes, hbytes, rfl⟩ := hnode
      refine ⟨bytes, rfl, .inr ?_⟩
      rcases Option.or_eq_some_iff.mp hbytes with hsource | ⟨-, hresource⟩
      · exact .inl hsource
      · exact .inr hresource
  · rintro ⟨bytes, rfl, ⟨hthere, rfl⟩ | hsource | hresource⟩
    · refine ⟨?_, by rw [hw.files, if_pos hthere]⟩
      rw [hthere, hplace]
      exact Path.isBeneath_iff.mpr ⟨_, by simp, rfl⟩
    · have hmem := lastAt_isSome.mp (by rw [hsource]; rfl)
      obtain ⟨file, hfile, rfl⟩ := List.mem_map.mp hmem
      have hin := isBeneath_sourcesAt hfile
      have hne : file.1 ≠ place := fun he => hnotSource (he ▸ hin)
      refine ⟨isBeneath_of_sourcesAt hin, ?_⟩
      rw [hw.files, if_neg hne, hs.files _ (isBeneath_of_sourcesAt hin), hsource]
      rfl
    · have hmem := lastAt_isSome.mp (by rw [hresource]; rfl)
      obtain ⟨file, hfile, rfl⟩ := List.mem_map.mp hmem
      have hin := hs.copiedInside file hfile
      have hsource := lastAt_sources pushed hin
      have hne : file.1 ≠ place := fun he => hnotResource (he ▸ hin)
      refine ⟨isBeneath_of_resourcesAt hin, ?_⟩
      rw [hw.files, if_neg hne, hs.files _ (isBeneath_of_resourcesAt hin), hsource, hresource]
      rfl

end

/-! ### Runs -/

section

variable {job : RebuildJob} {s s' : RebuildState} {tree : FileTree}

theorem openArchive_returns {content : ArchiveContent}
    (h : Returns (openArchive job) s content s') :
    ArchiveReader.contentOf job.settings job.archive s.tree = .ok content ∧ s' = s := by
  replace h := returns_get_bind.mp h
  split at h
  · next found hfound =>
    obtain ⟨rfl, rfl⟩ := returns_pure.mp h
    exact ⟨hfound, rfl⟩
  · exact absurd h not_returns_throw

/-- An archive that can be opened has a name. -/
theorem name_ne_nil_of_contentOf {settings : Settings} {path : Path} {content : ArchiveContent}
    (htree : tree.WellFormed) (hpath : path.Proper)
    (h : ArchiveReader.contentOf settings path tree = .ok content) : path.name ≠ [] := by
  intro hname
  have hparts : path.parts = [] := by
    by_contra hne
    have hlast : path.name = path.parts.getLast hne := by
      simp [Path.name, List.getLast?_eq_some_getLast hne]
    exact (hpath _ (List.getLast_mem hne)).nonempty (hlast ▸ hname)
  -- without components the path leads to a directory
  have hstat : tree.stat path = some .directory := by
    simp only [FileTree.stat, FileTree.locate, hparts, FileTree.follow]
    split
    · exact htree.working
    · rfl
  unfold ArchiveReader.contentOf at h
  rw [if_pos (by simp [FileTree.isFile, hstat, Node.isDirectory])] at h
  cases h

/-- The directory of a project is named after the archive. -/
theorem projectIn_eq {content : ArchiveContent} (output : Path) (htree : tree.WellFormed)
    (harchive : job.archive.Proper) (hdot : job.archive.stem ≠ ['.'])
    (hcontent : ArchiveReader.contentOf job.settings job.archive tree = .ok content) :
    projectIn job output = ⟨output.root, output.parts ++ [job.archive.stem]⟩ :=
  Path.joinText_of_isName output <|
    Path.isName_stem harchive (name_ne_nil_of_contentOf htree harchive hcontent) hdot

/-- The scan fills the directories that were made. -/
theorem scanInto_returns {here : Location} {project : Path} {content : ArchiveContent} {u : Unit}
    (hs : Standing here project s.pushed [] s) (hd : Handed job.decompiler [] s)
    (h : Returns (scanInto job project content) s u s') :
    Standing here project s'.pushed ((Archive.entries job.settings content).filterMap
        (copyOf? (resourcesAt here project) content)) s' ∧
      Handed job.decompiler (readableClasses job.settings content) s' := by
  obtain ⟨_, s₁, hzero, h⟩ := returns_bind.mp h
  obtain rfl := returns_modify.mp hzero
  obtain ⟨before, detail, s₂, after, hbody, rfl⟩ := inPhase_returns h
  obtain ⟨_, s₃, hscan, hbody⟩ := returns_bind.mp hbody
  replace hbody := returns_get_bind.mp hbody
  obtain ⟨-, rfl⟩ := returns_pure.mp hbody
  have hs₁ : Standing here project s.pushed []
      { s with resourcesCopied := 0, progress := before } :=
    hs.congr rfl rfl hs.copiedCount.symm
  have hd₁ : Handed job.decompiler [] { s with resourcesCopied := 0, progress := before } :=
    hd.congr rfl rfl
  obtain ⟨hs₃, hd₃⟩ := hs₁.scan hd₁ hscan
  exact ⟨hs₃.congr rfl rfl rfl, hd₃.congr rfl rfl⟩

/-- Resolving the dependencies changes nothing but the record of phases. -/
theorem resolve_returns {dependencies : DependencySet}
    (h : Returns (inPhase "resolve" do
      let dependencies ← resolve job
      pure (dependencies, counted "dependencies" dependencies.size)) s dependencies s') :
    ∃ progress, s' = { s with progress } := by
  obtain ⟨before, detail, t, after, hbody, rfl⟩ := inPhase_returns h
  obtain ⟨_, _, hresolve, hpure⟩ := returns_bind.mp hbody
  obtain ⟨-, rfl⟩ := returns_pure.mp hpure
  replace hpure := returns_get_bind.mp hresolve
  obtain ⟨-, rfl⟩ := returns_pure.mp hpure
  exact ⟨after, rfl⟩

/-- **Filling the directories** leaves the reconstructed project. -/
theorem Standing.fill {project : Path} {content : ArchiveContent} {report : RebuildReport}
    (hs : Standing tree.workingDirectory project s.pushed [] s) (hd : Handed job.decompiler [] s)
    (hopen : ArchiveReader.contentOf job.settings job.archive tree = .ok content)
    (h : Returns (Rebuild.fill job project content) s report s') :
    report.project = project ∧ ∃ pom, Reconstruction job tree content pom report s' := by
  obtain ⟨_, s₁, hscan, h⟩ := returns_bind.mp h
  obtain ⟨hs₁, hd₁⟩ := scanInto_returns hs hd hscan
  obtain ⟨dependencies, s₂, hresolve, h⟩ := returns_bind.mp h
  obtain ⟨progress, rfl⟩ := resolve_returns hresolve
  obtain ⟨descriptor, s₃, hdescriptor, h⟩ := returns_bind.mp h
  obtain ⟨pom, t, progress', rfl, hpom, hw, rest, hplace⟩ := writeDescriptor_returns hdescriptor
  replace h := returns_get_bind.mp h
  obtain ⟨rfl, rfl⟩ := returns_pure.mp h
  dsimp only at hpom hw hplace
  rw [hs₁.working] at hw hplace
  refine ⟨rfl, pom, hopen, hpom, hd₁.pushes, ?_, ?_, ?_⟩
  · intro there node
    dsimp only
    rw [← lastAt_copies]
    exact hs₁.files_of_writes hplace hw there node
  · rw [← hs₁.encard_sources]
    congr 1
    ext there
    refine and_congr_right fun hin => ?_
    dsimp only
    rw [hw.files, if_neg]
    rintro rfl
    exact (descriptor_not_isBeneath hplace).1 hin
  · exact hs₁.copiedCount.trans (length_copies _ _ _)

/-- **A run that returns has left the reconstructed project**, whatever its archive holds, whatever
the decompiler pushes, and whatever stood in the directory before. -/
theorem reconstruction_of_run {output : Path} {clock : List Float} {report : RebuildReport}
    (houtput : job.output = some output) (hup : Path.up ∉ output.parts)
    (harchive : job.archive.Proper) (hdot : job.archive.stem ≠ ['.'])
    (hdots : job.archive.stem ≠ Path.up) (htree : tree.WellFormed)
    (hrun : (run job).run.run (.start clock tree) = (.ok report, s)) :
    report.project = ⟨output.root, output.parts ++ [job.archive.stem]⟩ ∧
      ∃ content pom, Reconstruction job tree content pom report s := by
  have h : Returns (run job) (.start clock tree) report s := hrun
  unfold run at h
  rw [houtput] at h
  obtain ⟨content, s₁, hopen, h⟩ := returns_bind.mp h
  obtain ⟨hcontent, rfl⟩ := openArchive_returns hopen
  have hproject := projectIn_eq output htree harchive hdot hcontent
  have hprojectUp : Path.up ∉ (projectIn job output).parts := by
    rw [hproject, List.mem_append, not_or]
    exact ⟨hup, by simpa using Ne.symm hdots⟩
  have hne : Path.normalize tree.workingDirectory (projectIn job output) ≠ [] := by
    rw [Path.normalize_of_not_mem _ hprojectUp, hproject]
    simp
  generalize projectIn job output = project at h hproject hprojectUp hne
  -- scaffolding clears the directory, and from then on the invariant holds
  obtain ⟨_, s₂, hscaffold, h⟩ := returns_bind.mp h
  obtain ⟨hs₂, hd₂⟩ : Standing tree.workingDirectory project s₂.pushed [] s₂ ∧
      Handed job.decompiler [] s₂ :=
    standing_of_scaffold htree hprojectUp hne rfl rfl rfl rfl hscaffold
  rw [← hproject]
  split at h
  -- without a decompiler, its phase is skipped before the directories are filled
  · obtain ⟨_, s₃, hnote, h⟩ := returns_bind.mp h
    have he := note_returns hnote
    have hs₃ : Standing tree.workingDirectory project s₃.pushed [] s₃ := by
      rw [he]
      exact hs₂.congr rfl rfl rfl
    have hd₃ : Handed job.decompiler [] s₃ := hd₂.congr (by rw [he]) (by rw [he])
    obtain ⟨hreport, pom, hr⟩ := hs₃.fill hd₃ hcontent h
    exact ⟨hreport, content, pom, hr⟩
  · obtain ⟨hreport, pom, hr⟩ := hs₂.fill hd₂ hcontent h
    exact ⟨hreport, content, pom, hr⟩

end

/-! ### A run -/

/-- An archive with an empty class, a resource that is written twice and one that leads elsewhere,
beside a directory with the project of an earlier run. -/
def sampleTree : FileTree where
  nodes :=
    [(["app.jar".toList], .archive
        [("A.class".toList,
          [0xCA, 0xFE, 0xBA, 0xBE, 0, 0, 0, 52, 0, 3, 1, 0, 1, 65, 7, 0, 1, 0, 0x21, 0, 2, 0, 0, 0,
            0, 0, 0, 0, 0, 0, 0]),
        ("BOOT-INF/classes/a".toList, [1]), ("BOOT-INF/classes/../b".toList, [2]),
        ("BOOT-INF/classes/x/../a".toList, [3])]),
      (["out".toList], .directory),
      (["out".toList, "app".toList], .directory),
      (["out".toList, "app".toList, "old".toList], .file [0])]
  workingDirectory := []

/-- The job of rebuilding it. -/
def sampleJob : RebuildJob where
  archive := .ofString "app.jar"
  output := some (.ofString "out")
  settings := .default
  resolver := .default
  decompiler := some (SketchDecompiler.decompile ⟨[], []⟩)

/-- The same job with a decompiler that pushes two sources, the second of which ends its line. -/
def twoSourcesJob : RebuildJob :=
  { sampleJob with
    decompiler := some (SketchDecompiler.decompile
      ⟨[("A.class".toList, ["class A".toList, "class B\n".toList])], []⟩) }

theorem reconstruction_of_run_sample :
    sampleTree.WellFormed ∧ ∃ report s,
      (run twoSourcesJob).run.run (.start [] sampleTree) = (.ok report, s) ∧
      report.sourcesWritten = 2 ∧ report.resourcesCopied = 2 ∧
      report.project = .ofString "out/app" ∧
      s.tree.file? (["out", "app", "src", "main", "java", "A.java"].map String.toList) =
        some (.file (Utf8.encode "class A\n".toList)) ∧
      s.tree.file? (["out", "app", "src", "main", "java", "B.java"].map String.toList) =
        some (.file (Utf8.encode "class B\n".toList)) ∧
      s.tree.file? (["out", "app", "src", "main", "resources", "a"].map String.toList) =
        some (.file [3]) ∧
      ∃ content pom, Reconstruction twoSourcesJob sampleTree content pom report s := by
  have htree : sampleTree.WellFormed :=
    FileTree.wellFormed_of_nodes (by decide) (by decide)
  have hcounts : (((run twoSourcesJob).run.run (.start [] sampleTree)).1.toOption.map fun report =>
      (report.sourcesWritten, report.resourcesCopied)) = some (2, 2) := by
    decide +kernel
  have hfiles : ([["src", "main", "java", "A.java"], ["src", "main", "java", "B.java"],
      ["src", "main", "resources", "a"]].map fun names =>
        ((run twoSourcesJob).run.run (.start [] sampleTree)).2.tree.file?
          (("out" :: "app" :: names).map String.toList)) =
      [some (.file (Utf8.encode "class A\n".toList)), some (.file (Utf8.encode "class B\n".toList)),
        some (.file [3])] := by
    decide +kernel
  obtain ⟨report, hreport, hcounts⟩ := Option.map_eq_some_iff.mp hcounts
  generalize hend : (run twoSourcesJob).run.run (.start [] sampleTree) = ending at hreport hfiles
  obtain ⟨result, s⟩ := ending
  obtain rfl := eq_ok_of_toOption hreport
  obtain ⟨hproject, hreconstruction⟩ := reconstruction_of_run rfl (by decide)
    (Path.proper_ofText _) (by decide) (by decide) htree hend
  simp only [List.map_cons, List.map_nil, List.cons.injEq, and_true] at hfiles
  obtain ⟨hfirst, hsecond, hresource⟩ := hfiles
  refine ⟨htree, report, s, rfl, congrArg Prod.fst hcounts, congrArg Prod.snd hcounts, ?_, hfirst,
    hsecond, hresource, hreconstruction⟩
  rw [hproject]
  decide

end Unjar.Rebuild
