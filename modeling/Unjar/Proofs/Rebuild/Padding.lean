import Unjar.Proofs.Likeness
import Unjar.Proofs.Rebuild.Accounting

/-!
Entries that are passed over.

Directories, excluded entries and entries of no kind are passed over, wherever they stand, how often
they occur and whatever they hold.  An entry is read by its name, so that none of them is read in the
place of another; and since a run looks into no archive but its own, two trees that differ in such
entries only are rebuilt and inspected alike.  The decompiler may look at the files, but not into
archives.

Main definitions:

* `Unjar.Archive.Padded` — **an archive with further entries** that are passed over;
* `Unjar.Decompiler.Overlooks` — the decompiler does not look into archives;
* `Unjar.RebuildState.Alike` — states that differ in their archives only.

Main results:

* `Unjar.Archive.Padded.entries_eq`, `Unjar.Archive.Padded.read?_eq` — the same entries, and under
  their names the same bytes;
* `Unjar.Cfr.overlooks`, `Unjar.SketchDecompiler.overlooks` — the decompilers of this library;
* `Unjar.Rebuild.respects_scan`, `Unjar.Rebuild.respects_rebuildInto` — no part of a run looks into
  an archive;
* `Unjar.Rebuild.run_of_padded` — **entries that are passed over do not matter**.
-/

set_option autoImplicit false

namespace Unjar

/-! ### Archives -/

namespace Archive

/-- **An archive with further entries** between its own, all of them passed over. -/
inductive Padded (settings : Settings) : ArchiveContent → ArchiveContent → Prop
  | nil : Padded settings [] []
  | keep (entry : Text × Bytes) {content padded : ArchiveContent}
      (h : Padded settings content padded) : Padded settings (entry :: content) (entry :: padded)
  | pad {entry : Text × Bytes} {content padded : ArchiveContent}
      (hentry : classifyEntry settings entry = none) (h : Padded settings content padded) :
      Padded settings content (entry :: padded)

variable {settings : Settings} {content padded : ArchiveContent}

theorem read?_cons (first : Text × Bytes) (content : ArchiveContent) (name : Text) :
    read? (first :: content) name =
      (read? content name).or (if first.1 = name then some first.2 else none) := by
  rw [read?, read?, List.reverse_cons, List.find?_append]
  cases content.reverse.find? fun entry => entry.1 == name with
  | some found => rfl
  | none => by_cases hname : first.1 = name <;> simp [hname]

namespace Padded

theorem entries_eq (h : Padded settings content padded) :
    entries settings padded = entries settings content := by
  induction h with
  | nil => rfl
  | keep entry _ ih => rw [entries, entries, List.filterMap_cons, List.filterMap_cons, ← entries,
      ← entries, ih]
  | pad hentry _ ih => rw [entries, List.filterMap_cons, hentry, ← entries, ih]

/-- **A name that is not passed over** has the same bytes: none of the further entries bears it. -/
theorem read?_eq (h : Padded settings content padded) {name : Text}
    (hname : classifyEntry settings (name, []) ≠ none) :
    read? padded name = read? content name := by
  induction h with
  | nil => rfl
  | keep entry _ ih => rw [read?_cons, read?_cons, ih]
  | @pad entry content padded hentry _ ih =>
      have hne : entry.1 ≠ name := by
        rintro rfl
        exact hname hentry
      rw [read?_cons, ih, if_neg hne, Option.or_none]

theorem manifestClassPath_eq (h : Padded settings content padded) :
    manifestClassPath padded = manifestClassPath content := by
  have hname : classifyEntry settings (manifestPath, []) ≠ none := by
    have hdirectory : isDirectoryName manifestPath = false := by decide
    simp [classifyEntry, hdirectory, classify]
  rw [manifestClassPath, h.read?_eq hname, manifestClassPath]

end Padded

end Archive

/-! ### Scans -/

theorem Archive.Padded.examine_eq {settings : Settings} {content padded : ArchiveContent}
    (h : Padded settings content padded) (f : Findings) (entry : ArchiveEntry) (bytes : Bytes) :
    f.examine padded entry bytes = f.examine content entry bytes := by
  unfold Findings.examine
  rw [h.manifestClassPath_eq]

/-- An entry is not passed over, whatever it holds. -/
theorem Archive.classifyEntry_of_mem {settings : Settings} {content : ArchiveContent}
    {entry : ArchiveEntry} (h : entry ∈ entries settings content) :
    classifyEntry settings (entry.path, []) ≠ none := by
  obtain ⟨stored, -, hentry⟩ := List.mem_filterMap.mp h
  have hpath : entry.path = stored.1 := by
    unfold classifyEntry at hentry
    split at hentry
    · cases hentry
    · exact Rebuild.path_of_classify hentry
  have hname : classifyEntry settings (entry.path, []) = classifyEntry settings stored := by
    rw [classifyEntry, classifyEntry, hpath]
  rw [hname, hentry]
  exact Option.some_ne_none entry

/-- **A scan is the same** with further entries that are passed over. -/
theorem Rebuild.scan_of_padded {job : RebuildJob} {project : Option Path}
    {content padded : ArchiveContent} (h : Archive.Padded job.settings content padded) :
    scan job project padded = scan job project content := by
  have hentry : ∀ entry ∈ Archive.entries job.settings content,
      scanEntry job.decompiler project padded entry =
        scanEntry job.decompiler project content entry := by
    intro entry hentry
    unfold scanEntry examineEntry
    simp only [h.read?_eq (Archive.classifyEntry_of_mem hentry), h.examine_eq]
  unfold scan
  rw [h.entries_eq]
  revert hentry
  generalize Archive.entries job.settings content = entries
  intro hentry
  induction entries with
  | nil => rfl
  | cons entry entries ih =>
      rw [List.forall_mem_cons] at hentry
      have hcons : ∀ content, (entry :: entries).forM (scanEntry job.decompiler project content) =
          (scanEntry job.decompiler project content entry >>= fun _ =>
            entries.forM (scanEntry job.decompiler project content)) := fun _ => rfl
      rw [hcons, hcons, hentry.1, ih hentry.2]

/-! ### Decompilers -/

variable {R : ArchiveContent → ArchiveContent → Prop}

/-- **The decompiler does not look into archives.** -/
def Decompiler.Overlooks (d : Decompiler) (R : ArchiveContent → ArchiveContent → Prop) : Prop :=
  ∀ t t' : FileTree, t.Alike R t' → d.work t = d.work t'

/-- The command-line decompiler asks whether its own file is there, and that is all. -/
theorem Cfr.overlooks (c : Cfr) : c.decompile.Overlooks R := by
  intro t t' h
  funext handed bytes entry
  simp only [Cfr.decompile, h.isFile]

theorem SketchDecompiler.overlooks (d : SketchDecompiler) : d.decompile.Overlooks R :=
  fun _ _ _ => rfl

/-! ### Parts of a run -/

/-- **States that differ in their archives** only. -/
def RebuildState.Alike (R : ArchiveContent → ArchiveContent → Prop) (s s' : RebuildState) : Prop :=
  ∃ tree, s.tree.Alike R tree ∧ s' = { s with tree }

namespace Rebuild

section

variable {α ε : Type} {decompiler : Option Decompiler} {project : Path} {content : ArchiveContent}
  {job : RebuildJob}

theorem respects_get {f : RebuildState → Rebuilding α}
    (hf : ∀ s, Respects (RebuildState.Alike R) (f s))
    (hsame : ∀ s tree, s.tree.Alike R tree → f { s with tree } = f s) :
    Respects (RebuildState.Alike R) (get >>= f) := by
  refine respects_get_bind fun s s' h => ?_
  have halike := h
  obtain ⟨tree, htree, rfl⟩ := h
  rw [hsame s tree htree]
  exact hf s s _ halike

theorem respects_update {g : RebuildState → RebuildState}
    (hg : ∀ s tree, g { s with tree } = { g s with tree }) (htree : ∀ s, (g s).tree = s.tree) :
    Respects (RebuildState.Alike R) (modify g : Rebuilding PUnit) := by
  refine respects_modify ?_
  rintro s _ ⟨tree, h, rfl⟩
  exact ⟨tree, htree s ▸ h, hg s tree⟩

theorem respects_note (change : Progress → Progress) :
    Respects (RebuildState.Alike R) (note change) :=
  respects_update (fun _ _ => rfl) fun _ => rfl

theorem respects_inPhase {name : String} {body : Rebuilding (α × Text)}
    (hbody : Respects (RebuildState.Alike R) body) :
    Respects (RebuildState.Alike R) (inPhase name body) := by
  have henter : Respects (RebuildState.Alike R) (modifyGet fun s =>
      let entered := s.progress.enter name.toList
      (entered.1, { s with progress := entered.2 }) : Rebuilding Nat) := by
    rintro s _ ⟨tree, h, rfl⟩
    exact .intro _ ⟨tree, h, rfl⟩
  refine henter.bind fun place => Respects.bind ?_ fun _ => ?_
  · exact hbody.tryCatch fun fault => (respects_note _).bind fun _ => respects_throw fault
  · exact (respects_note _).bind fun _ => respects_pure _

theorem respects_writing {faultOf : ε → RebuildFault} {act : FileTree → Except ε α × FileTree}
    (hact : ∀ t t' : FileTree, t.Alike R t' → EndAlike (FileTree.Alike R) (act t) (act t')) :
    Respects (RebuildState.Alike R) (writing faultOf act) := by
  rintro s _ ⟨tree, h, rfl⟩
  obtain ⟨result, u, u', ht, ht', hu⟩ := hact s.tree tree h
  rw [outcome_writing, outcome_writing, ht, ht']
  exact .intro _ ⟨u', hu, rfl⟩

theorem respects_placing {act : Placement → FileTree → Except WriteFault α × Placement × FileTree}
    (hact : ∀ (p : Placement) (t t' : FileTree), t.Alike R t' →
      Placement.PlacedAlike R (act p t) (act p t')) :
    Respects (RebuildState.Alike R) (placing project act) := by
  rintro s _ ⟨tree, h, rfl⟩
  obtain ⟨result, p, u, u', ht, ht', hu⟩ := hact (s.placement project) s.tree tree h
  have hplacement : RebuildState.placement { s with tree } project = s.placement project := rfl
  rw [outcome_placing, outcome_placing, hplacement, ht, ht']
  exact .intro _ ⟨u', hu, rfl⟩

theorem respects_push (text : Text) : Respects (RebuildState.Alike R) (push project text) :=
  Respects.bind (respects_update (fun _ _ => rfl) fun _ => rfl) fun _ =>
    respects_placing fun p _ _ h => p.accept_alike text h

/-- **A class is decompiled alike** by a decompiler that does not look into archives. -/
theorem respects_decompileClass {d : Decompiler} (hd : d.Overlooks R) (name : Text)
    (bytes : Bytes) : Respects (RebuildState.Alike R) (decompileClass d project name bytes) := by
  rw [decompileClass_eq]
  refine respects_get (fun s => ?_) fun s tree h => by dsimp only; rw [hd _ _ h]
  dsimp only
  refine Respects.bind (respects_update (fun _ _ => rfl) fun _ => rfl) fun _ => ?_
  refine (Respects.forM fun text _ => respects_push text.1).bind fun _ => ?_
  unfold conclude
  split
  · exact respects_pure _
  · exact respects_update (fun _ _ => rfl) fun _ => rfl
  · exact respects_throw _

theorem respects_examineEntry (entry : ArchiveEntry) (bytes : Bytes) :
    Respects (RebuildState.Alike R) (examineEntry content entry bytes) := by
  refine respects_get (fun s => ?_) fun _ _ _ => rfl
  split
  · exact respects_throw _
  · exact Respects.bind (respects_update (fun _ _ => rfl) fun _ => rfl) fun _ => respects_pure _

theorem respects_scanEntry {project : Option Path}
    (hd : ∀ d ∈ decompiler, Decompiler.Overlooks d R) (entry : ArchiveEntry) :
    Respects (RebuildState.Alike R) (scanEntry decompiler project content entry) := by
  refine (respects_examineEntry entry _).bind fun finding => ?_
  cases project with
  | none => exact respects_pure _
  | some project =>
      unfold writeEntry
      dsimp only
      split
      · split
        · exact respects_decompileClass (hd _ rfl) _ _
        · exact respects_pure _
      · exact respects_placing fun p _ _ h => p.copyResource_alike _ _ h
      · exact respects_pure _

/-- **A scan** does not look into an archive. -/
theorem respects_scan {project : Option Path} (hd : ∀ d ∈ job.decompiler, Decompiler.Overlooks d R) :
    Respects (RebuildState.Alike R) (scan job project content) :=
  .forM fun entry _ => respects_scanEntry hd entry

theorem respects_resolve : Respects (RebuildState.Alike R) (resolve job) :=
  respects_get (fun _ => respects_pure _) fun _ _ _ => rfl

theorem respects_fill (hd : ∀ d ∈ job.decompiler, Decompiler.Overlooks d R) :
    Respects (RebuildState.Alike R) (fill job project content) := by
  have hscan : Respects (RebuildState.Alike R) (scanInto job project content) := by
    refine Respects.bind (respects_update (fun _ _ => rfl) fun _ => rfl) fun _ => respects_inPhase ?_
    exact (respects_scan hd).bind fun _ =>
      respects_get (fun _ => respects_pure _) fun _ _ _ => rfl
  have hwrite : ∀ dependencies,
      Respects (RebuildState.Alike R) (writeDescriptor job project dependencies) := by
    intro dependencies
    refine respects_inPhase (respects_get (fun s => ?_) fun _ _ _ => rfl)
    exact (respects_writing fun _ _ h => ProjectDescriptor.writeTo_alike _ _ h).bind fun _ =>
      respects_pure _
  refine hscan.bind fun _ => Respects.bind ?_ fun dependencies => ?_
  · exact respects_inPhase (respects_resolve.bind fun _ => respects_pure _)
  · exact (hwrite dependencies).bind fun _ =>
      respects_get (fun _ => respects_pure _) fun _ _ _ => rfl

/-- **No part of a run** looks into an archive, once its own is open. -/
theorem respects_rebuildInto (hd : ∀ d ∈ job.decompiler, Decompiler.Overlooks d R) :
    Respects (RebuildState.Alike R) (rebuildInto job project content) := by
  have hskip : Respects (RebuildState.Alike R) (skipDecompiling job) := by
    unfold skipDecompiling
    split
    · exact respects_note _
    · exact respects_pure _
  refine Respects.bind ?_ fun _ => hskip.bind fun _ => respects_fill hd
  exact respects_inPhase ((respects_writing fun _ _ h =>
    ProjectLayout.create_alike project h).bind fun _ => respects_pure _)

end

/-! ### Runs and inspections -/

theorem contentOf_alike {t t' : FileTree} (h : t.Alike R t') (settings : Settings) (path : Path) :
    (∃ fault, ArchiveReader.contentOf settings path t = .error fault ∧
        ArchiveReader.contentOf settings path t' = .error fault) ∨
      ∃ content content', ArchiveReader.contentOf settings path t = .ok content ∧
        ArchiveReader.contentOf settings path t' = .ok content' ∧ R content content' := by
  unfold ArchiveReader.contentOf
  rw [h.isFile]
  split
  · exact .inl ⟨_, rfl, rfl⟩
  · split
    · exact .inl ⟨_, rfl, rfl⟩
    · have hnode := h.stat path
      revert hnode
      generalize t.stat path = node
      generalize t'.stat path = node'
      rintro (⟨_ | _ | hcontent⟩ | _)
      · exact .inl ⟨_, rfl, rfl⟩
      · exact .inl ⟨_, rfl, rfl⟩
      · exact .inr ⟨_, _, rfl, rfl, hcontent⟩
      · exact .inl ⟨_, rfl, rfl⟩

section

variable {job : RebuildJob}

theorem respects_run
    (hpadded : ∀ content padded, R content padded → Archive.Padded job.settings content padded)
    (hdecompiler : ∀ d ∈ job.decompiler, Decompiler.Overlooks d R) :
    Respects (RebuildState.Alike R) (run job) := by
  cases houtput : job.output with
  | none =>
      unfold run
      rw [houtput]
      exact respects_throw _
  | some output =>
      intro s s' h
      have halike := h
      obtain ⟨tree, htree, rfl⟩ := h
      rw [outcome_run houtput, outcome_run houtput]
      dsimp only
      obtain ⟨fault, hcontent, hcontent'⟩ | ⟨content, padded, hcontent, hcontent', hR⟩ :=
        contentOf_alike htree job.settings job.archive
      · rw [hcontent, hcontent']
        exact .intro _ halike
      · have hfill : ∀ project, rebuildInto job project padded =
            rebuildInto job project content := by
          intro project
          unfold rebuildInto fill scanInto
          rw [scan_of_padded (hpadded _ _ hR)]
        rw [hcontent, hcontent']
        dsimp only
        rw [hfill]
        exact respects_rebuildInto hdecompiler _ _ halike

theorem respects_inspect
    (hpadded : ∀ content padded, R content padded → Archive.Padded job.settings content padded)
    (hdecompiler : ∀ d ∈ job.decompiler, Decompiler.Overlooks d R) :
    Respects (RebuildState.Alike R) (inspect job) := by
  intro s s' h
  have halike := h
  obtain ⟨tree, htree, rfl⟩ := h
  unfold inspect
  rw [outcome_bind, outcome_bind, outcome_openArchive, outcome_openArchive]
  dsimp only
  obtain ⟨fault, hcontent, hcontent'⟩ | ⟨content, padded, hcontent, hcontent', hR⟩ :=
    contentOf_alike htree job.settings job.archive
  · rw [hcontent, hcontent']
    exact .intro _ halike
  · rw [hcontent, hcontent']
    dsimp only [Except.mapError]
    rw [scan_of_padded (hpadded _ _ hR)]
    refine Respects.bind (respects_inPhase ?_) (fun _ => respects_inPhase ?_) _ _ halike
    · exact (respects_scan hdecompiler).bind fun _ =>
        respects_get (fun _ => respects_pure _) fun _ _ _ => rfl
    · exact respects_resolve.bind fun _ => respects_pure _

/-- **Entries that are passed over do not matter.**  Two trees whose archives differ in such entries
only are rebuilt and inspected alike, by a decompiler that does not look into archives: with the same
report or fault, after handing the same classes to the decompiler, and with trees that differ in such
entries only. -/
theorem run_of_padded {tree tree' : FileTree}
    (hpadded : ∀ content padded, R content padded → Archive.Padded job.settings content padded)
    (hdecompiler : ∀ d ∈ job.decompiler, Decompiler.Overlooks d R) (htree : tree.Alike R tree')
    (clock : List Float) :
    EndAlike (RebuildState.Alike R) ((run job).run.run (.start clock tree))
        ((run job).run.run (.start clock tree')) ∧
      EndAlike (RebuildState.Alike R) ((inspect job).run.run (.start clock tree))
        ((inspect job).run.run (.start clock tree')) := by
  have hstart : (RebuildState.start clock tree).Alike R (.start clock tree') :=
    ⟨tree', htree, rfl⟩
  exact ⟨respects_run hpadded hdecompiler _ _ hstart,
    respects_inspect hpadded hdecompiler _ _ hstart⟩

end

/-- An archive with a manifest and a class. -/
def plainContent : ArchiveContent :=
  [("META-INF/MANIFEST.MF".toList, Utf8.encode "Class-Path: lib/a-1.2.jar\r\n".toList),
    ("A.class".toList,
      [0xCA, 0xFE, 0xBA, 0xBE, 0, 0, 0, 52, 0, 3, 1, 0, 1, 65, 7, 0, 1, 0, 0x21, 0, 2, 0, 0, 0,
        0, 0, 0, 0, 0, 0, 0])]

/-- The same with a directory, an excluded class, and a text that occurs twice. -/
def paddedContent : ArchiveContent :=
  ("META-INF/".toList, []) :: ("notes.txt".toList, [1]) :: plainContent ++
    [("META-INF/A.class".toList, [0]), ("notes.txt".toList, [2])]

/-- The job of rebuilding it. -/
def paddedJob : RebuildJob where
  archive := .ofString "app.jar"
  output := some (.ofString "out")
  settings := .default
  resolver := .default
  decompiler := some (SketchDecompiler.decompile ⟨[], []⟩)

theorem padded_paddedContent : Archive.Padded .default plainContent paddedContent :=
  .pad (by decide +kernel) <| .pad (by decide +kernel) <| .keep _ <| .keep _ <|
    .pad (by decide +kernel) <| .pad (by decide +kernel) .nil

/-- A tree with one archive. -/
def treeWith (content : ArchiveContent) : FileTree where
  nodes := [(["app.jar".toList], .archive content)]
  workingDirectory := []

theorem run_of_padded_sample :
    ∃ report s s',
      (run paddedJob).run.run (.start [] (treeWith plainContent)) = (.ok report, s) ∧
      (run paddedJob).run.run (.start [] (treeWith paddedContent)) = (.ok report, s') ∧
      report.classesScanned = 1 ∧ s.decompiled.length = 1 ∧
      s.Alike (Archive.Padded .default) s' := by
  obtain ⟨report, s, hend, hcounts⟩ : ∃ report s,
      (run paddedJob).run.run (.start [] (treeWith plainContent)) = (.ok report, s) ∧
        (report.classesScanned, s.decompiled.length) = (1, 1) :=
    exists_eq_ok_of_map (by decide +kernel)
  obtain ⟨hscanned, hdecompiled⟩ := Prod.mk.inj hcounts
  have hdecompiler : ∀ d ∈ paddedJob.decompiler,
      Decompiler.Overlooks d (Archive.Padded .default) := by
    rintro _ ⟨⟩
    exact SketchDecompiler.overlooks _
  have htree : (treeWith plainContent).Alike (Archive.Padded .default) (treeWith paddedContent) :=
    ⟨rfl, .cons ⟨rfl, .archive padded_paddedContent⟩ .nil, rfl⟩
  have hends : EndAlike (RebuildState.Alike (Archive.Padded .default))
      ((run paddedJob).run.run (.start [] (treeWith plainContent)))
      ((run paddedJob).run.run (.start [] (treeWith paddedContent))) :=
    (run_of_padded (fun _ _ h => h) hdecompiler htree []).1
  obtain ⟨_, _, s', hfirst, hsecond, hs⟩ := hends
  rw [hend] at hfirst
  cases hfirst
  exact ⟨report, s, s', hend, hsecond, hscanned, hdecompiled, hs⟩

end Rebuild

end Unjar
