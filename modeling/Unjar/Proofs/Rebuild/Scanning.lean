import Unjar.Proofs.Placement
import Unjar.Rebuild

/-!
What stands beneath a project while its archive is scanned.

Scanning writes two kinds of files, sources that the decompiler pushes and resources of the archive.
The two lie in different directories, so that neither ever replaces the other; within its directory
a file holds what was placed there last.  This is the invariant of the scan: beneath the project
stand the last source and the last resource of each place, and nothing else.  It is kept by every
text pushed and every entry scanned, and so by the whole scan.

Main definitions:

* `Unjar.lastAt` — what was written last at a location;
* `Unjar.Rebuild.sourceFiles`, `Unjar.Rebuild.resourceFiles` — the files of a list of texts, and of
  an archive;
* `Unjar.Rebuild.Pushes` — the texts that a decompiler pushes for a list of classes;
* `Unjar.Rebuild.Standing` — **the invariant**.

Main results:

* `Unjar.Rebuild.Standing.push`, `Unjar.Rebuild.Standing.copy`, `Unjar.Rebuild.Standing.scanEntry` —
  each step keeps it;
* `Unjar.Rebuild.Standing.scan` — the scan as a whole.
-/

set_option autoImplicit false

namespace Unjar

/-! ### The last of several writes -/

/-- **What was written last at a location**, of files written one after the other. -/
def lastAt (files : List (Location × Bytes)) (here : Location) : Option Bytes :=
  files.reverse.lookup here

theorem lastAt_concat (files : List (Location × Bytes)) (there here : Location) (content : Bytes) :
    lastAt (files ++ [(there, content)]) here =
      if here = there then some content else lastAt files here := by
  simp only [lastAt, List.reverse_append, List.reverse_cons, List.reverse_nil, List.nil_append,
    List.singleton_append, List.lookup_cons]
  by_cases h : here = there
  · simp [h]
  · have hb : (here == there) = false := by simpa using h
    simp [hb, h]

theorem lastAt_isSome {files : List (Location × Bytes)} {here : Location} :
    (lastAt files here).isSome ↔ here ∈ files.map Prod.fst := by
  rw [lastAt, List.lookup_isSome_iff, List.mem_map]
  constructor
  · rintro ⟨file, hfile, hhere⟩
    exact ⟨file, List.mem_reverse.mp hfile, (beq_iff_eq.mp hhere).symm⟩
  · rintro ⟨file, hfile, rfl⟩
    exact ⟨file, List.mem_reverse.mpr hfile, beq_self_eq_true _⟩

theorem lastAt_eq_none {files : List (Location × Bytes)} {here : Location}
    (h : ∀ file ∈ files, file.1 ≠ here) : lastAt files here = none := by
  rw [← Option.not_isSome_iff_eq_none, lastAt_isSome, List.mem_map]
  rintro ⟨file, hfile, hhere⟩
  exact h file hfile hhere

/-- The last of several files in one place is the one behind which there is no other. -/
theorem lastAt_append_cons {front back : List (Location × Bytes)} {here : Location}
    (content : Bytes) (h : ∀ file ∈ back, file.1 ≠ here) :
    lastAt (front ++ (here, content) :: back) here = some content := by
  induction back using List.reverseRecOn with
  | nil => rw [lastAt_concat, if_pos rfl]
  | append_singleton back file ih =>
      rw [List.forall_mem_append, List.forall_mem_singleton] at h
      rw [← List.cons_append, ← List.append_assoc, lastAt_concat, if_neg h.2.symm, ih h.1]

namespace Rebuild

/-! ### Sources and resources -/

/-- **The files of the texts** that were pushed, in order; texts of blanks have none. -/
def sourceFiles (directory : Location) (pushed : List Text) : List (Location × Bytes) :=
  (pushed.filter fun text => !Text.isAllBlank text).map (Placement.sourceFile directory)

/-- Where the resource of an entry goes, if it is one and goes anywhere. -/
def locationOf? (directory : Location) (entry : ArchiveEntry) : Option Location :=
  if entry.kind = .resource then Placement.resourceLocation? directory entry.relativePath
  else none

/-- **The files of the resources** of an archive, in order. -/
def resourceFiles (settings : Settings) (directory : Location) (content : ArchiveContent) :
    List (Location × Bytes) :=
  content.filterMap fun entry =>
    ((Archive.classifyEntry settings entry).bind (locationOf? directory)).map
      fun here => (here, entry.2)

/-- The class of an entry, under its name and with its bytes, if it is one that can be read. -/
def classOf? (content : ArchiveContent) (entry : ArchiveEntry) : Option (Text × Bytes) :=
  let bytes := (Archive.read? content entry.path).getD []
  if entry.kind = .classFile ∧ (ClassReferences.extract bytes).toOption.isSome then
    some (entry.path, bytes)
  else none

/-- **The classes** of an archive that can be read, in order. -/
def readableClasses (settings : Settings) (content : ArchiveContent) : List (Text × Bytes) :=
  (Archive.entries settings content).filterMap (classOf? content)

/-- **The texts that a decompiler pushes** for classes that it is handed one after the other. -/
inductive Pushes : Option Decompiler → List (Text × Bytes) → List Text → Prop
  | none (classes : List (Text × Bytes)) : Pushes none classes []
  | start (d : Decompiler) : Pushes (some d) [] []
  | hand {d : Decompiler} {classes : List (Text × Bytes)} {texts : List Text} (tree : FileTree)
      (name : Text) (bytes : Bytes) : Pushes (some d) classes texts →
      Pushes (some d) (classes ++ [(name, bytes)])
        (texts ++ (d.work tree classes bytes name).pushed.map Prod.fst)

theorem sourceFiles_concat_of_blank {text : Text} (h : Text.isAllBlank text = true)
    (directory : Location) (pushed : List Text) :
    sourceFiles directory (pushed ++ [text]) = sourceFiles directory pushed := by
  simp [sourceFiles, h]

theorem sourceFiles_concat {text : Text} (h : Text.isAllBlank text = false)
    (directory : Location) (pushed : List Text) :
    sourceFiles directory (pushed ++ [text]) =
      sourceFiles directory pushed ++ [Placement.sourceFile directory text] := by
  simp [sourceFiles, h]

/-! ### Parts of a run that return -/

section

variable {s s' : RebuildState} {u : Unit}

theorem note_returns {change : Progress → Progress} (h : Returns (note change) s u s') :
    s' = { s with progress := change s.progress } := (returns_modify.mp h).symm

/-- A phase that returns did what its part of the run does, but for the record of phases. -/
theorem inPhase_returns {α : Type} {name : String} {body : Rebuilding (α × Text)} {a : α}
    (h : Returns (inPhase name body) s a s') :
    ∃ before detail t after, Returns body { s with progress := before } (a, detail) t ∧
      s' = { t with progress := after } := by
  obtain ⟨place, s₁, henter, h⟩ := returns_bind.mp h
  obtain ⟨-, rfl⟩ := Prod.mk.inj (returns_modifyGet.mp henter)
  obtain ⟨⟨result, detail⟩, t, hbody, h⟩ := returns_bind.mp h
  obtain ⟨_, s₂, hnote, h⟩ := returns_bind.mp h
  obtain rfl := note_returns hnote
  obtain ⟨rfl, rfl⟩ := returns_pure.mp h
  rcases returns_tryCatch.mp hbody with hbody | ⟨fault, s₃, -, hfail⟩
  · exact ⟨_, detail, t, _, hbody, rfl⟩
  · exact absurd hfail not_returns_bind_throw

theorem writing_returns {ε α : Type} {faultOf : ε → RebuildFault}
    {act : FileTree → Except ε α × FileTree} {a : α}
    (h : Returns (writing faultOf act) s a s') :
    ∃ t, act s.tree = (.ok a, t) ∧ s' = { s with tree := t } := by
  replace h := returns_get_bind.mp h
  rcases hact : act s.tree with ⟨fault | b, t⟩
  · rw [hact] at h
    exact absurd h not_returns_bind_throw
  · rw [hact] at h
    replace h := returns_modify_bind.mp h
    obtain ⟨rfl, rfl⟩ := returns_pure.mp h
    exact ⟨t, rfl, rfl⟩

theorem placing_returns {α : Type} {project : Path}
    {act : Placement → FileTree → Except WriteFault α × Placement × FileTree}
    (h : Returns (placing project act) s u s') :
    ∃ r p t, act (s.placement project) s.tree = (.ok r, p, t) ∧
      s' = { s with registry := p.registry, resourcesCopied := p.resourcesCopied, tree := t } := by
  replace h := returns_get_bind.mp h
  rcases hact : act (s.placement project) s.tree with ⟨fault | r, p, t⟩
  · rw [hact] at h
    exact absurd h not_returns_bind_throw
  · rw [hact] at h
    obtain ⟨_, _, hset, h⟩ := returns_bind.mp h
    obtain rfl := returns_set.mp hset
    obtain ⟨-, rfl⟩ := returns_pure.mp h
    exact ⟨r, p, t, rfl, rfl⟩

end

/-! ### The invariant -/

@[simp] theorem placement_registry (s : RebuildState) (project : Path) :
    (s.placement project).registry = s.registry := rfl

@[simp] theorem placement_resourcesCopied (s : RebuildState) (project : Path) :
    (s.placement project).resourcesCopied = s.resourcesCopied := rfl

/-- The directory of the sources of a project. -/
def sourcesAt (here : Location) (project : Path) : Location :=
  Path.normalize here (project.join ProjectLayout.mainSources)

/-- The directory of the resources of a project. -/
def resourcesAt (here : Location) (project : Path) : Location :=
  Path.normalize here (project.join ProjectLayout.mainResources)

theorem sourcesAt_eq (here : Location) (project : Path) :
    sourcesAt here project = Path.normalize here project ++ ProjectLayout.mainSources.parts := by
  rw [sourcesAt, Path.normalize_join, Path.normalize_of_not_mem _ (by decide)]
  rfl

theorem resourcesAt_eq (here : Location) (project : Path) :
    resourcesAt here project =
      Path.normalize here project ++ ProjectLayout.mainResources.parts := by
  rw [resourcesAt, Path.normalize_join, Path.normalize_of_not_mem _ (by decide)]
  rfl

theorem mainSources_eq :
    ProjectLayout.mainSources = ⟨0, ["src".toList, "main".toList, "java".toList]⟩ := by decide

theorem mainResources_eq :
    ProjectLayout.mainResources = ⟨0, ["src".toList, "main".toList, "resources".toList]⟩ := by
  decide

/-- Nothing lies among both the sources and the resources. -/
theorem not_isBeneath_resourcesAt {here there : Location} {project : Path}
    (h : Path.isBeneath there (sourcesAt here project) = true) :
    ¬Path.isBeneath there (resourcesAt here project) = true := by
  rw [Path.isBeneath_iff, sourcesAt_eq, mainSources_eq] at h
  rw [Path.isBeneath_iff, resourcesAt_eq, mainResources_eq]
  obtain ⟨rest, -, rfl⟩ := h
  rintro ⟨rest', -, hr⟩
  rw [List.append_assoc, List.append_assoc, List.append_cancel_left_eq] at hr
  simp at hr

theorem isBeneath_sourcesAt {here : Location} {project : Path} {pushed : List Text}
    {file : Location × Bytes} (h : file ∈ sourceFiles (sourcesAt here project) pushed) :
    Path.isBeneath file.1 (sourcesAt here project) = true := by
  obtain ⟨text, -, rfl⟩ := List.mem_map.mp h
  exact Path.isBeneath_iff.mpr ⟨_, Placement.sourceNames_ne_nil text, rfl⟩

/-- No source lies where a resource does. -/
theorem lastAt_sources {here there : Location} {project : Path} (pushed : List Text)
    (h : Path.isBeneath there (resourcesAt here project) = true) :
    lastAt (sourceFiles (sourcesAt here project) pushed) there = none :=
  lastAt_eq_none fun _ hfile he => not_isBeneath_resourcesAt (isBeneath_sourcesAt hfile) (he ▸ h)

/-- **The invariant of a scan** in a run that works at `here`: of the texts pushed and the resources
copied so far, the last of each place stand beneath the project. -/
structure Standing (here : Location) (project : Path) (pushed : List Text)
    (copied : List (Location × Bytes)) (s : RebuildState) : Prop where
  working : s.tree.workingDirectory = here
  files : ∀ there, Path.isBeneath there (Path.normalize here project) = true →
    s.tree.file? there =
      ((lastAt (sourceFiles (sourcesAt here project) pushed) there).or
        (lastAt copied there)).map Node.file
  registered : s.registry.records.map SourceRecord.destination =
    (pushed.filter fun text => !Text.isAllBlank text).map fun text =>
      (project.join ProjectLayout.mainSources).join ⟨0, Placement.sourceNames text⟩
  copiedInside : ∀ file ∈ copied, Path.isBeneath file.1 (resourcesAt here project) = true
  copiedCount : s.resourcesCopied = copied.length

section

variable {here : Location} {project : Path} {pushed : List Text}
  {copied : List (Location × Bytes)} {s s' : RebuildState} {u : Unit}

/-- The invariant is about the files, the sources registered and the number of resources. -/
theorem Standing.congr (hs : Standing here project pushed copied s) (ht : s'.tree = s.tree)
    (hr : s'.registry = s.registry) (hc : s'.resourcesCopied = s.resourcesCopied) :
    Standing here project pushed copied s' := by
  refine ⟨?_, fun there hthere => ?_, ?_, hs.copiedInside, ?_⟩
  · rw [ht, hs.working]
  · rw [ht, hs.files there hthere]
  · rw [hr, hs.registered]
  · rw [hc, hs.copiedCount]

/-- **A source text that is placed** replaces the file of its names. -/
theorem Standing.accept {text : Text} (hs : Standing here project pushed copied s)
    (h : Returns (placing project (·.accept text)) s u s') :
    Standing here project (pushed ++ [text]) copied s' ∧ s'.pushed = s.pushed ∧
      s'.decompiled = s.decompiled := by
  obtain ⟨r, p, t, hact, rfl⟩ := placing_returns h
  refine ⟨?_, rfl, rfl⟩
  have hroot : Path.normalize s.tree.workingDirectory (s.placement project).sourceRoot =
      sourcesAt here project := by
    rw [hs.working]
    rfl
  have haccept := Placement.accept_eq_ok hact
  rw [hroot] at haccept
  obtain ⟨hb, rfl, rfl⟩ | ⟨hb, record, hrecord, rfl, hw⟩ := haccept
  · -- a text of blanks adds no file
    refine ⟨hs.working, fun there hthere => ?_, ?_, hs.copiedInside, hs.copiedCount⟩
    · rw [sourceFiles_concat_of_blank hb]
      exact hs.files there hthere
    · simpa [hb] using hs.registered
  · refine ⟨hw.working.trans hs.working, fun there hthere => ?_, ?_, hs.copiedInside,
      hs.copiedCount⟩
    · rw [sourceFiles_concat hb, Placement.sourceFile, lastAt_concat,
        show t.file? there = _ from hw.files there]
      by_cases ht : there = sourcesAt here project ++ Placement.sourceNames text
      · rw [if_pos ht, if_pos ht]
        rfl
      · rw [if_neg ht, if_neg ht]
        exact hs.files there hthere
    · have hr : record.destination =
          (project.join ProjectLayout.mainSources).join ⟨0, Placement.sourceNames text⟩ := hrecord
      simp [WriteRegistry.register, hs.registered, hb, hr]

/-- **A resource that is copied** replaces the file at its place, which is no source. -/
theorem Standing.copy {relativePath : Text} {content : Bytes}
    (hs : Standing here project pushed copied s)
    (h : Returns (placing project (·.copyResource relativePath content)) s u s') :
    Standing here project pushed
        (copied ++ ((Placement.resourceLocation? (resourcesAt here project) relativePath).map
          fun there => (there, content)).toList) s' ∧
      s'.pushed = s.pushed ∧ s'.decompiled = s.decompiled := by
  obtain ⟨r, p, t, hact, rfl⟩ := placing_returns h
  refine ⟨?_, rfl, rfl⟩
  have hroot : Path.normalize s.tree.workingDirectory (s.placement project).resourceRoot =
      resourcesAt here project := by
    rw [hs.working]
    rfl
  have hcopy := Placement.copyResource_eq_ok hact
  rw [hroot] at hcopy
  obtain ⟨hn, rfl, rfl⟩ | ⟨place, hplace, rfl, hw⟩ := hcopy
  · rw [hn, Option.map_none, Option.toList_none, List.append_nil]
    exact hs.congr rfl rfl rfl
  · rw [hplace, Option.map_some, Option.toList_some]
    have hin := Placement.isBeneath_of_resourceLocation? hplace
    refine ⟨hw.working.trans hs.working, fun there hthere => ?_, hs.registered, ?_, ?_⟩
    · rw [lastAt_concat, show t.file? there = _ from hw.files there]
      by_cases ht : there = place
      · -- without a source in its place the resource is what stands there
        rw [if_pos ht, if_pos ht, lastAt_sources pushed (ht ▸ hin)]
        rfl
      · rw [if_neg ht, if_neg ht]
        exact hs.files there hthere
    · intro file hfile
      rcases List.mem_append.mp hfile with hfile | hfile
      · exact hs.copiedInside file hfile
      · rwa [List.mem_singleton.mp hfile]
    · simp [hs.copiedCount]

/-! ### The scan -/

/-- The classes handed to the decompiler so far, and the texts that it pushed for them. -/
structure Handed (decompiler : Option Decompiler) (handed : List (Text × Bytes))
    (s : RebuildState) : Prop where
  classes : decompiler.isSome → s.decompiled = handed
  pushes : Pushes decompiler handed s.pushed

/-- Without a decompiler it does not matter which classes there are. -/
theorem Handed.of_none {handed handed' : List (Text × Bytes)} (h : Handed none handed s)
    (hp : s'.pushed = s.pushed) : Handed none handed' s' := by
  refine ⟨fun hs => absurd hs (by simp), ?_⟩
  rw [hp]
  have hpushes := h.pushes
  generalize s.pushed = texts at hpushes
  cases hpushes
  exact .none handed'

theorem Handed.congr {decompiler : Option Decompiler} {handed : List (Text × Bytes)}
    (h : Handed decompiler handed s) (hp : s'.pushed = s.pushed)
    (hd : s'.decompiled = s.decompiled) : Handed decompiler handed s' :=
  ⟨fun hs => hd.trans (h.classes hs), hp ▸ h.pushes⟩

theorem Standing.push {text : Text} (hs : Standing here project s.pushed copied s)
    (h : Returns (Rebuild.push project text) s u s') :
    Standing here project s'.pushed copied s' ∧ s'.pushed = s.pushed ++ [text] ∧
      s'.decompiled = s.decompiled := by
  obtain ⟨_, s₁, hnote, h⟩ := returns_bind.mp h
  obtain rfl := returns_modify.mp hnote
  have hs₁ : Standing here project s.pushed copied { s with pushed := s.pushed ++ [text] } :=
    hs.congr rfl rfl rfl
  obtain ⟨ha, hp, hd⟩ := hs₁.accept h
  exact ⟨hp ▸ ha, hp, hd⟩

/-- All the texts that the decompiler pushes for a class. -/
theorem Standing.pushAll {texts : List (Text × Text)}
    (hs : Standing here project s.pushed copied s)
    (h : Returns (texts.forM fun (text, _) => Rebuild.push project text) s u s') :
    Standing here project s'.pushed copied s' ∧ s'.pushed = s.pushed ++ texts.map Prod.fst ∧
      s'.decompiled = s.decompiled := by
  refine h.forM_invariant (fun done t => Standing here project t.pushed copied t ∧
    t.pushed = s.pushed ++ done.map Prod.fst ∧ t.decompiled = s.decompiled) ?_ ⟨hs, by simp, rfl⟩
  rintro done ⟨text, hint⟩ t t' v ⟨ht, hp, hd⟩ hpush
  obtain ⟨ht', hp', hd'⟩ := ht.push hpush
  refine ⟨ht', ?_, hd'.trans hd⟩
  rw [hp', hp]
  simp

theorem Standing.decompileClass {d : Decompiler} {name : Text} {bytes : Bytes}
    {handed : List (Text × Bytes)} (hs : Standing here project s.pushed copied s)
    (hd : Handed (some d) handed s)
    (h : Returns (Rebuild.decompileClass d project name bytes) s u s') :
    Standing here project s'.pushed copied s' ∧
      Handed (some d) (handed ++ [(name, bytes)]) s' := by
  replace h := returns_get_bind.mp h
  dsimp only at h
  generalize hwork : d.work s.tree s.decompiled bytes name = work at h
  obtain ⟨_, s₁, hnote, h⟩ := returns_bind.mp h
  obtain rfl := returns_modify.mp hnote
  obtain ⟨_, s₂, hpush, h⟩ := returns_bind.mp h
  have hs₁ : Standing here project s.pushed copied { s with
      decompiled := s.decompiled ++ [(name, bytes)]
      commands := s.commands ++ work.commands } :=
    hs.congr rfl rfl rfl
  obtain ⟨hs₂, hp₂, hd₂⟩ := hs₁.pushAll hpush
  have hhanded : Handed (some d) (handed ++ [(name, bytes)]) s₂ := by
    have hclasses := hd.classes rfl
    refine ⟨fun _ => by rw [hd₂, ← hclasses], ?_⟩
    rw [hp₂, ← hwork, hclasses]
    exact .hand _ _ _ hd.pushes
  split at h
  · obtain ⟨-, rfl⟩ := returns_pure.mp h
    exact ⟨hs₂, hhanded⟩
  · -- a failure is noted, and what was pushed stays
    obtain rfl := returns_modify.mp h
    exact ⟨hs₂.congr rfl rfl rfl, hhanded.congr rfl rfl⟩
  · exact absurd h not_returns_throw

theorem examineEntry_returns {content : ArchiveContent} {entry : ArchiveEntry} {bytes : Bytes}
    {finding : Finding} (h : Returns (examineEntry content entry bytes) s finding s') :
    s.findings.examine content entry bytes = .ok finding ∧
      s' = { s with findings := s.findings.record entry finding } := by
  replace h := returns_get_bind.mp h
  split at h
  · exact absurd h not_returns_throw
  · next found hfound =>
    replace h := returns_modify_bind.mp h
    obtain ⟨rfl, rfl⟩ := returns_pure.mp h
    exact ⟨hfound, rfl⟩

/-- What an entry tells, by its kind and its bytes. -/
theorem examine_cases {f : Findings} {content : ArchiveContent} {entry : ArchiveEntry}
    {bytes : Bytes} {finding : Finding} (h : f.examine content entry bytes = .ok finding) :
    match finding with
    | .classReferences found =>
      entry.kind = .classFile ∧ (ClassReferences.extract bytes).toOption = some found
    | .malformedClass => entry.kind = .classFile ∧ (ClassReferences.extract bytes).toOption = none
    | .resource => entry.kind = .resource
    | .descriptor embedded => entry.kind = .descriptor ∧ f.embedded = none ∧
      EmbeddedDescriptor.ofBytes? entry.path bytes = .ok embedded
    | .laterDescriptor => entry.kind = .descriptor ∧ f.embedded.isSome
    | .manifest words => entry.kind = .manifest ∧ words = Archive.manifestClassPath content := by
  unfold Findings.examine at h
  split at h
  · next hk =>
    split at h
    · next found hf =>
      cases h
      exact ⟨hk, by rw [hf]; rfl⟩
    · next fault hf =>
      cases h
      exact ⟨hk, by rw [hf]; rfl⟩
  · next hk =>
    cases h
    exact hk
  · next hk =>
    split at h
    · next hsome =>
      cases h
      exact ⟨hk, hsome⟩
    · next hnone =>
      rcases hd : EmbeddedDescriptor.ofBytes? entry.path bytes with fault | embedded
      · rw [hd] at h
        cases h
      · rw [hd] at h
        cases h
        exact ⟨hk, by simpa using hnone, rfl⟩
  · next hk =>
    cases h
    exact ⟨hk, rfl⟩

/-- What an entry tells shows whether it is a class that can be read, a resource, or neither. -/
theorem examine_eq_ok {f : Findings} {content : ArchiveContent} {entry : ArchiveEntry}
    {bytes : Bytes} {finding : Finding} (h : f.examine content entry bytes = .ok finding) :
    match finding with
    | .classReferences _ =>
      entry.kind = .classFile ∧ (ClassReferences.extract bytes).toOption.isSome
    | .resource => entry.kind = .resource
    | _ => entry.kind ≠ .resource ∧
      ¬(entry.kind = .classFile ∧ (ClassReferences.extract bytes).toOption.isSome) := by
  have hcases := examine_cases h
  cases finding with
  | classReferences found => exact ⟨hcases.1, by rw [hcases.2]; rfl⟩
  | resource => exact hcases
  | malformedClass => simp [hcases.1, hcases.2]
  | descriptor | laterDescriptor | manifest => simp [hcases.1]

/-- The file that the resource of an entry becomes: it holds the last bytes under the name. -/
def copyOf? (directory : Location) (content : ArchiveContent) (entry : ArchiveEntry) :
    Option (Location × Bytes) :=
  (locationOf? directory entry).map fun there =>
    (there, (Archive.read? content entry.path).getD [])

/-- **An entry that is scanned** adds its file, if it is a resource, and its texts, if it is a class
that can be read. -/
theorem Standing.scanEntry {decompiler : Option Decompiler} {content : ArchiveContent}
    {entry : ArchiveEntry} {handed : List (Text × Bytes)}
    (hs : Standing here project s.pushed copied s) (hd : Handed decompiler handed s)
    (h : Returns (Rebuild.scanEntry decompiler (some project) content entry) s u s') :
    Standing here project s'.pushed
        (copied ++ (copyOf? (resourcesAt here project) content entry).toList) s' ∧
      Handed decompiler (handed ++ (classOf? content entry).toList) s' := by
  unfold Rebuild.scanEntry at h
  dsimp only at h
  generalize hbytes : (Archive.read? content entry.path).getD [] = bytes at h
  obtain ⟨finding, s₁, hexamine, h⟩ := returns_bind.mp h
  obtain ⟨hfinding, rfl⟩ := examineEntry_returns hexamine
  have hkind := examine_eq_ok hfinding
  generalize s.findings.record entry finding = findings at h
  have hs₁ : Standing here project s.pushed copied { s with findings } :=
    hs.congr rfl rfl rfl
  have hd₁ : Handed decompiler handed { s with findings } := hd.congr rfl rfl
  unfold writeEntry at h
  split at h
  -- a class that can be read, a resource, and an entry that nothing is written for
  · obtain ⟨hk, hx⟩ := hkind
    have hcopy : copyOf? (resourcesAt here project) content entry = none := by
      simp [copyOf?, locationOf?, hk]
    have hclass : classOf? content entry = some (entry.path, bytes) := by
      simp [classOf?, hbytes, hk, hx]
    rw [hcopy, hclass, Option.toList_none, List.append_nil, Option.toList_some]
    cases decompiler with
    | none =>
        obtain ⟨-, rfl⟩ := returns_pure.mp h
        exact ⟨hs₁, hd₁.of_none rfl⟩
    | some d => exact hs₁.decompileClass hd₁ h
  · have hclass : classOf? content entry = none := by
      simp [classOf?, show entry.kind = .resource from hkind]
    have hcopy : copyOf? (resourcesAt here project) content entry =
        (Placement.resourceLocation? (resourcesAt here project) entry.relativePath).map
          fun there => (there, bytes) := by
      simp [copyOf?, locationOf?, hbytes, show entry.kind = .resource from hkind]
    obtain ⟨hs', hp, hd'⟩ := hs₁.copy h
    rw [hcopy, hclass, Option.toList_none, List.append_nil, hp]
    exact ⟨hs', hd₁.congr hp hd'⟩
  · next hother hresource =>
    have hnone : entry.kind ≠ .resource ∧
        ¬(entry.kind = .classFile ∧ (ClassReferences.extract bytes).toOption.isSome) := by
      cases finding with
      | classReferences found => exact absurd rfl (hother found)
      | resource => exact absurd rfl hresource
      | malformedClass | descriptor _ | laterDescriptor | manifest _ => exact hkind
    have hcopy : copyOf? (resourcesAt here project) content entry = none := by
      simp [copyOf?, locationOf?, hnone.1]
    have hclass : classOf? content entry = none := by
      rw [classOf?, hbytes]
      exact if_neg hnone.2
    rw [hcopy, hclass, Option.toList_none, Option.toList_none, List.append_nil, List.append_nil]
    obtain ⟨-, rfl⟩ := returns_pure.mp h
    exact ⟨hs₁, hd₁⟩

/-- **The scan** adds the files of all resources, and the texts of all classes that can be read. -/
theorem Standing.scan {job : RebuildJob} {content : ArchiveContent}
    (hs : Standing here project s.pushed [] s) (hd : Handed job.decompiler [] s)
    (h : Returns (Rebuild.scan job (some project) content) s u s') :
    Standing here project s'.pushed ((Archive.entries job.settings content).filterMap
        (copyOf? (resourcesAt here project) content)) s' ∧
      Handed job.decompiler (readableClasses job.settings content) s' := by
  refine h.forM_invariant (fun done t =>
    Standing here project t.pushed
        (done.filterMap (copyOf? (resourcesAt here project) content)) t ∧
      Handed job.decompiler (done.filterMap (classOf? content)) t) ?_ ⟨hs, hd⟩
  rintro done entry t t' v ⟨ht, hd⟩ hentry
  obtain ⟨ht', hd'⟩ := ht.scanEntry hd hentry
  simp only [List.filterMap_append, List.filterMap_cons, List.filterMap_nil]
  refine ⟨?_, ?_⟩
  · cases hc : copyOf? (resourcesAt here project) content entry <;> simpa [hc] using ht'
  · cases hc : classOf? content entry <;> simpa [hc] using hd'

/-! ### The bytes of a resource -/

theorem path_of_classify {settings : Settings} {name : Text} {entry : ArchiveEntry}
    (h : Archive.classify settings name = some entry) : entry.path = name := by
  unfold Archive.classify at h
  dsimp only at h
  repeat' split at h
  all_goals first
    | cases h; rfl
    | cases h

/-- Among entries whose place depends on their name, the last at a place is the last of its name:
whoever reads by name finds its own bytes there. -/
theorem lookup_find_of_name (place : Text → Option Location) (there : Location)
    (before rest : List (Text × Bytes)) (h : ∀ entry ∈ before, place entry.1 ≠ some there) :
    (rest.filterMap fun entry => (place entry.1).map fun l =>
        (l, (((before ++ rest).find? fun e => e.1 == entry.1).map Prod.snd).getD [])).lookup there =
      (rest.filterMap fun entry => (place entry.1).map fun l => (l, entry.2)).lookup there := by
  induction rest generalizing before with
  | nil => rfl
  | cons entry rest ih =>
      have hrest := ih (before ++ [entry])
      rw [List.append_assoc, List.singleton_append] at hrest
      rw [List.filterMap_cons, List.filterMap_cons]
      cases hp : place entry.1 with
      | none =>
          refine hrest fun e he => ?_
          rcases List.mem_append.mp he with he | he
          · exact h e he
          · simp [List.mem_singleton.mp he, hp]
      | some l =>
          simp only [Option.map_some, List.lookup_cons]
          by_cases hl : there = l
          · subst hl
            -- no earlier entry has this name, since it would have this place
            have hfind : (before ++ entry :: rest).find? (fun e => e.1 == entry.1) =
                some entry := by
              rw [List.find?_append, List.find?_eq_none.mpr, Option.none_or, List.find?_cons]
              · simp
              · intro e he hname
                exact h e he (by rw [beq_iff_eq.mp hname, hp])
            simp [hfind]
          · have hb : (there == l) = false := by simpa using hl
            rw [hb]
            refine hrest fun e he => ?_
            rcases List.mem_append.mp he with he | he
            · exact h e he
            · rw [List.mem_singleton.mp he, hp]
              simpa using Ne.symm hl

/-- Where the entry of a name goes. -/
def placeOf? (settings : Settings) (directory : Location) (name : Text) : Option Location :=
  (Archive.classifyEntry settings (name, [])).bind (locationOf? directory)

theorem copies_eq (settings : Settings) (directory : Location) (content : ArchiveContent) :
    (Archive.entries settings content).filterMap (copyOf? directory content) =
      content.filterMap fun entry => (placeOf? settings directory entry.1).map fun there =>
        (there, (Archive.read? content entry.1).getD []) := by
  rw [Archive.entries, List.filterMap_filterMap]
  congr 1
  funext entry
  have hentry : Archive.classifyEntry settings entry =
      Archive.classifyEntry settings (entry.1, []) := rfl
  rw [placeOf?, hentry]
  cases hc : Archive.classifyEntry settings (entry.1, []) with
  | none => rfl
  | some found =>
      have hpath : found.path = entry.1 := by
        unfold Archive.classifyEntry at hc
        split at hc
        · cases hc
        · exact path_of_classify hc
      simp [copyOf?, hpath]

/-- **What is copied** are the files of the resources: at each place the last entry's own bytes. -/
theorem lastAt_copies (settings : Settings) (directory : Location) (content : ArchiveContent)
    (there : Location) :
    lastAt ((Archive.entries settings content).filterMap (copyOf? directory content)) there =
      lastAt (resourceFiles settings directory content) there := by
  have h := lookup_find_of_name (placeOf? settings directory) there [] content.reverse (by simp)
  rw [copies_eq, lastAt, lastAt, ← List.filterMap_reverse, resourceFiles, ← List.filterMap_reverse]
  exact h

theorem length_copies (settings : Settings) (directory : Location) (content : ArchiveContent) :
    ((Archive.entries settings content).filterMap (copyOf? directory content)).length =
      (resourceFiles settings directory content).length := by
  rw [copies_eq, resourceFiles, List.length_filterMap_eq_countP, List.length_filterMap_eq_countP]
  simp only [Option.isSome_map]
  rfl

end

end Rebuild

end Unjar
