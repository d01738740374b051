import Mathlib.Data.List.Infix
import Unjar.Proofs.Rebuild.Keeping
import Unjar.Proofs.Rebuild.Reconstruction

/-!
What a run leaves alone.

Whether a run returns or fails, it changes what stands at the directory of its project and beneath;
elsewhere everything stays, the archive and the other contents of the output directory included, and
nothing comes but directories that are missing on the way to the project.

This holds of archives whose resources keep to the project.  A resource is placed when its path leads
beneath the directory of resources, but the directories on the way of the path are made one after the
other, and with pairs of dots the way may lead out of the project and back.  Such a resource leaves
directories outside the project.

Main definitions:

* `Unjar.Rebuild.within`, `Unjar.Rebuild.wayTo` — the locations of a project and those on the way;
* `Unjar.Rebuild.ResourcesKeepTo` — resources whose paths do not leave the project.

Main results:

* `Unjar.Rebuild.resourcesKeepTo_of_not_mem` — paths without pairs of dots do not leave the project;
* `Unjar.Rebuild.staysWithin_rebuildInto` — the parts of a run one after the other;
* `Unjar.Rebuild.untouched_of_run` — **a run touches nothing but its project**;
* `Unjar.Rebuild.strays_of_run` — a resource whose path leaves the project and comes back.
-/

set_option autoImplicit false

namespace Unjar

/-- What stood somewhere before is still there. -/
theorem FileTree.Confined.get?_eq_some {made changed : Set Location} {t t' : FileTree}
    (h : Confined made changed t t') {here : Location} {node : Node} (hhere : here ∉ changed)
    (hn : t.get? here = some node) : t'.get? here = some node := by
  rcases h.nodes here hhere with hsame | ⟨-, hnone, -⟩
  · rw [hsame, hn]
  · rw [hn] at hnone
    cases hnone

namespace Rebuild

/-! ### The locations of a project -/

section

variable {here : Location} {project : Path} {relativePath : Text}

/-- **The locations of a project**: its directory and all beneath. -/
def within (here : Location) (project : Path) : Set Location :=
  {there | Path.normalize here project <+: there}

/-- **The locations on the way to a project**, by its path and from the root. -/
def wayTo (here : Location) (project : Path) : Set Location :=
  Path.way here project ∪ {there | there <+: Path.normalize here project}

/-- **The resources keep to the project**: the path of each that is copied has nothing on its way
but what lies within the project or on the way to it. -/
def ResourcesKeepTo (settings : Settings) (here : Location) (project : Path)
    (content : ArchiveContent) : Prop :=
  ∀ entry ∈ Archive.entries settings content,
    (locationOf? (resourcesAt here project) entry).isSome →
      Path.way here ((project.join ProjectLayout.mainResources).joinText entry.relativePath) ⊆
        wayTo here project ∪ within here project

/-- Whether the resources keep to the project can be computed. -/
theorem resourcesKeepTo_of_inits {settings : Settings} {content : ArchiveContent}
    (h : ∀ entry ∈ Archive.entries settings content,
      (locationOf? (resourcesAt here project) entry).isSome →
        ∀ front ∈ ((project.join ProjectLayout.mainResources).joinText
            entry.relativePath).parts.inits,
          let there := Path.normalize here
            ⟨((project.join ProjectLayout.mainResources).joinText entry.relativePath).root, front⟩
          there <+: Path.normalize here project ∨ Path.normalize here project <+: there) :
    ResourcesKeepTo settings here project content := by
  rintro entry hentry hcopied there ⟨front, hfront, rfl⟩
  rcases h entry hentry hcopied front ((List.mem_inits _ _).mpr hfront) with hp | hp
  · exact .inl (.inr hp)
  · exact .inr hp

/-- A directory of the project is reached on the way to the project and within it. -/
theorem way_join (directory : Path) (hroot : directory.root = 0) (hup : Path.up ∉ directory.parts) :
    Path.way here (project.join directory) ⊆ wayTo here project ∪ within here project := by
  rw [Path.join, if_pos hroot]
  refine (Path.way_append here project directory.parts).trans (Set.union_subset_union ?_ ?_)
  · exact Set.subset_union_left
  · exact fun there hthere => Path.prefix_of_mem_way hup hthere

theorem mem_within_of_join {there : Location} (directory : Path)
    (hroot : directory.root = 0) (hup : Path.up ∉ directory.parts)
    (h : Path.normalize here (project.join directory) <+: there) : there ∈ within here project := by
  rw [Path.normalize_join, Path.normalize_of_not_mem _ hup, if_pos hroot] at h
  exact (List.prefix_append _ _).trans h

/-- A path without pairs of dots that leads beneath the directory of resources does not leave the
project. -/
theorem way_resource {there : Location} (hup : Path.up ∉ (Path.ofText relativePath).parts)
    (h : Placement.resourceLocation? (resourcesAt here project) relativePath = some there) :
    Path.way here ((project.join ProjectLayout.mainResources).joinText relativePath) ⊆
      wayTo here project ∪ within here project := by
  have hplain : ProjectLayout.mainResources.root = 0 ∧
    Path.up ∉ ProjectLayout.mainResources.parts := by decide
  have hin : Path.isBeneath there (Path.normalize here project) = true :=
    isBeneath_of_resourcesAt (Placement.isBeneath_of_resourceLocation? h)
  obtain ⟨rest, -, hrest⟩ := Path.isBeneath_iff.mp hin
  rw [Path.joinText, Path.join]
  split
  · refine (Path.way_append here _ _).trans (Set.union_subset ?_ ?_)
    · exact way_join _ hplain.1 hplain.2
    · intro place hplace
      refine .inr (mem_within_of_join _ hplain.1 hplain.2 ?_)
      exact Path.prefix_of_mem_way hup hplace
  · next hroot =>
    -- a path from the root names the project on its way, or has not yet come to it
    rintro place ⟨front, hfront, rfl⟩
    have hthere : there = (Path.ofText relativePath).parts := by
      unfold Placement.resourceLocation? at h
      dsimp only at h
      split at h
      · rw [← Option.some.inj h, Path.normalize_of_not_mem _ hup, if_neg hroot, List.nil_append]
      · cases h
    rw [Path.normalize_of_not_mem _ fun hmem => hup (hfront.subset hmem), if_neg hroot,
      List.nil_append]
    rw [← hthere, hrest] at hfront
    rcases List.prefix_or_prefix_of_prefix hfront (List.prefix_append _ rest) with hp | hp
    · exact .inl (.inr hp)
    · exact .inr hp

/-- **Resources without pairs of dots** in their paths keep to the project. -/
theorem resourcesKeepTo_of_not_mem {settings : Settings} {content : ArchiveContent}
    (h : ∀ entry ∈ Archive.entries settings content, entry.kind = .resource →
      Path.up ∉ (Path.ofText entry.relativePath).parts) :
    ResourcesKeepTo settings here project content := by
  intro entry hentry hcopied
  obtain ⟨there, hthere⟩ := Option.isSome_iff_exists.mp hcopied
  unfold locationOf? at hthere
  split at hthere
  · next hkind => exact way_resource (h entry hentry hkind) hthere
  · cases hthere

end

/-! ### The parts of a run -/

section

variable {here : Location} {project : Path} {job : RebuildJob} {content : ArchiveContent}
  {α : Type}

/-- A part of a run changes the files of the project alone. -/
def StaysWithin (here : Location) (project : Path) (x : Rebuilding α) : Prop :=
  Keeps (fun s s' => FileTree.ConfinedFrom here (wayTo here project) (within here project)
    s.tree s'.tree) x

theorem StaysWithin.bind {β : Type} {x : Rebuilding α} {f : α → Rebuilding β}
    (hx : StaysWithin here project x) (hf : ∀ a, StaysWithin here project (f a)) :
    StaysWithin here project (x >>= f) :=
  Keeps.bind .trans hx hf

theorem staysWithin_scan (hresources : ResourcesKeepTo job.settings here project content) :
    StaysWithin here project (scan job (some project) content) := by
  have hmain : ProjectLayout.mainSources.root = 0 ∧ Path.up ∉ ProjectLayout.mainSources.parts ∧
    ProjectLayout.mainResources.root = 0 ∧ Path.up ∉ ProjectLayout.mainResources.parts := by decide
  refine keeps_scan .trans ?_ ?_ ?_
  · intro s s' ht _
    rw [ht]
    exact .refl _
  · intro text s
    rw [outcome_placing]
    refine Placement.confined_accept _ ?_ (fun there hthere => ?_) s.tree
    · refine (Path.way_append here _ _).trans (Set.union_subset ?_ fun there hthere => .inr ?_)
      · exact way_join _ hmain.1 hmain.2.1
      · have hup := Placement.up_not_mem_sourceNames text
        exact mem_within_of_join _ hmain.1 hmain.2.1 (Path.prefix_of_mem_way hup hthere)
    · obtain ⟨rest, -, rfl⟩ := Path.isBeneath_iff.mp hthere
      exact mem_within_of_join _ hmain.1 hmain.2.1 (List.prefix_append _ _)
  · intro entry hentry hkind bytes s
    rw [outcome_placing]
    refine Placement.confined_copyResource _ (fun there hthere => ?_) (fun there hthere => ?_) s.tree
    · refine hresources entry hentry ?_
      rw [locationOf?, if_pos hkind]
      exact Option.isSome_iff_exists.mpr ⟨there, hthere⟩
    · obtain ⟨rest, -, rfl⟩ := Path.isBeneath_iff.mp hthere
      exact mem_within_of_join _ hmain.2.2.1 hmain.2.2.2 (List.prefix_append _ _)

/-- **What a run does once its archive is open** stays within the project. -/
theorem staysWithin_rebuildInto (hhere : Path.up ∉ here) (hparts : project.parts ≠ [])
    (hname : project.name ≠ Path.up)
    (hresources : ResourcesKeepTo job.settings here project content) :
    StaysWithin here project (rebuildInto job project content) := by
  have hquiet : ∀ {s s' : RebuildState}, s'.tree = s.tree →
      FileTree.ConfinedFrom here (wayTo here project) (within here project) s.tree s'.tree := by
    intro s s' ht
    rw [ht]
    exact .refl _
  have hscaffold : StaysWithin here project (scaffold project) := by
    refine keeps_inPhase (StaysWithin.bind (fun s => ?_) fun _ _ => hquiet rfl)
    rw [outcome_writing]
    refine ProjectLayout.confined_create hparts hname ?_ (fun _ hthere => hthere) s.tree
    exact Set.subset_union_left.trans Set.subset_union_left
  have hscan : StaysWithin here project (scanInto job project content) := by
    refine .bind (fun _ => hquiet rfl) fun _ => keeps_inPhase ?_
    exact (staysWithin_scan hresources).bind fun _ _ => hquiet rfl
  have hwrite : ∀ dependencies, StaysWithin here project
      (writeDescriptor job project dependencies) := by
    refine fun dependencies => keeps_inPhase (StaysWithin.bind (fun _ => hquiet rfl) fun s₁ => ?_)
    refine StaysWithin.bind (fun s => ?_) fun _ _ => hquiet rfl
    rw [outcome_writing]
    refine ProjectDescriptor.confined_writeTo _ (Path.up_not_mem_normalize hhere _) ?_
    obtain ⟨rest, hrest⟩ := normalize_fileAt here project s.tree
    rw [hrest]
    exact List.prefix_append _ _
  have hfill : StaysWithin here project (fill job project content) := by
    refine hscan.bind fun _ => .bind (keeps_inPhase fun _ => hquiet rfl) fun dependencies => ?_
    exact (hwrite dependencies).bind fun _ _ => hquiet rfl
  refine hscaffold.bind fun _ => .bind ?_ fun _ => hfill
  unfold skipDecompiling
  split <;> exact fun _ => hquiet rfl

/-! ### Runs -/

variable {tree : FileTree} {s : RebuildState}

/-- **A run touches nothing but its project**, whatever stood anywhere before, and whether it returns
or fails.  The project is a directory of its own in the output directory; what stands elsewhere
stays, and nothing comes there but directories on the way to the project. -/
theorem untouched_of_run {output : Path} {clock : List Float}
    {ending : Except RebuildFault RebuildReport} (houtput : job.output = some output)
    (hcontent : ArchiveReader.contentOf job.settings job.archive tree = .ok content)
    (harchive : job.archive.Proper) (hdot : job.archive.stem ≠ ['.'])
    (hdots : job.archive.stem ≠ Path.up) (htree : tree.WellFormed)
    (hworking : Path.up ∉ tree.workingDirectory)
    (hresources : ResourcesKeepTo job.settings tree.workingDirectory (projectIn job output) content)
    (hrun : (run job).run.run (.start clock tree) = (ending, s)) :
    Path.normalize tree.workingDirectory (projectIn job output) =
        Path.normalize tree.workingDirectory output ++ [job.archive.stem] ∧
      tree.Confined (wayTo tree.workingDirectory (projectIn job output))
        (within tree.workingDirectory (projectIn job output)) s.tree ∧
      ∀ there node, there ∉ within tree.workingDirectory (projectIn job output) →
        tree.get? there = some node → s.tree.get? there = some node := by
  have hproject := projectIn_eq output htree harchive hdot hcontent
  have hstem := Path.isName_stem harchive (name_ne_nil_of_contentOf htree harchive hcontent) hdot
  have hparts : (projectIn job output).parts ≠ [] := by simp [hproject]
  have hname : (projectIn job output).name ≠ Path.up := by simpa [hproject, Path.name] using hdots
  have hend : (outcome (run job) (.start clock tree)).2 = s := congrArg Prod.snd hrun
  rw [outcome_run houtput, show (RebuildState.start clock tree).tree = tree from rfl, hcontent]
    at hend
  have hconfined : tree.Confined (wayTo tree.workingDirectory (projectIn job output))
      (within tree.workingDirectory (projectIn job output)) s.tree := by
    rw [← hend]
    exact staysWithin_rebuildInto hworking hparts hname hresources (.start clock tree) rfl
  exact ⟨Path.normalize_joinText _ _ hstem hdots, hconfined,
    fun there node hthere hn => hconfined.get?_eq_some hthere hn⟩

end

/-! ### Runs on samples -/

theorem untouched_of_run_sample :
    ∃ content ending s,
      ArchiveReader.contentOf sampleJob.settings sampleJob.archive sampleTree = .ok content ∧
      ResourcesKeepTo sampleJob.settings [] (.ofString "out/app") content ∧
      (run sampleJob).run.run (.start [] sampleTree) = (ending, s) ∧
      s.tree.get? ["app.jar".toList] = some (.archive content) := by
  have htree : sampleTree.WellFormed :=
    FileTree.wellFormed_of_nodes (by decide) (by decide)
  have hread : (ArchiveReader.contentOf sampleJob.settings sampleJob.archive sampleTree).toOption =
      some ((ArchiveReader.contentOf sampleJob.settings sampleJob.archive
        sampleTree).toOption.getD []) := by decide +kernel
  have hcontent := eq_ok_of_toOption hread
  have hresources : ResourcesKeepTo sampleJob.settings [] (.ofString "out/app")
      ((ArchiveReader.contentOf sampleJob.settings sampleJob.archive
        sampleTree).toOption.getD []) := by
    refine resourcesKeepTo_of_inits ?_
    decide +kernel
  have hstands : sampleTree.get? ["app.jar".toList] = some (.archive
      ((ArchiveReader.contentOf sampleJob.settings sampleJob.archive
        sampleTree).toOption.getD [])) := by decide +kernel
  generalize (ArchiveReader.contentOf sampleJob.settings sampleJob.archive
    sampleTree).toOption.getD [] = content at hcontent hresources hstands
  generalize hend : (run sampleJob).run.run (.start [] sampleTree) = ending
  obtain ⟨result, s⟩ := ending
  have hproject : projectIn sampleJob (.ofString "out") = .ofString "out/app" := by decide
  have huntouched := untouched_of_run rfl hcontent (Path.proper_ofText _) (by decide) (by decide)
    htree (by decide) (hproject ▸ hresources) hend
  refine ⟨content, result, s, hcontent, hresources, rfl, ?_⟩
  refine huntouched.2.2 _ _ ?_ hstands
  change ¬_ <+: _
  decide

/-- An archive with a resource whose path leaves the project and comes back. -/
def strayTree : FileTree where
  nodes := [(["app.jar".toList], .archive
    [("BOOT-INF/classes/../../../../other/../app/src/main/resources/a.txt".toList, [120])])]
  workingDirectory := []

/-- **A resource that leaves the project and comes back** leaves a directory outside. -/
theorem strays_of_run :
    strayTree.get? ["out".toList, "other".toList] = none ∧
      (((run sampleJob).run.run (.start [] strayTree)).2.tree.get?
        ["out".toList, "other".toList] = some .directory ∧
      ["out".toList, "other".toList] ∉ within [] (.ofString "out/app")) := by
  refine ⟨by decide, by decide +kernel, ?_⟩
  change ¬_ <+: _
  decide

end Rebuild

end Unjar
