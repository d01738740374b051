import Unjar.Proofs.Rebuild.Accounting
import Unjar.Proofs.Rebuild.Reconstruction

/-!
Inspecting an archive and rebuilding its project.

What an archive tells is told by its entries alone.  One after the other they are looked at, and the
first whose encoding cannot be read ends it; the files, the sources that were placed and the decompiler
have no say in this.  A scan that returns has therefore found what the entries tell, whether or not a
project is filled on the way; and an inspection, which writes nothing, cannot fail where a run has
returned.

Main definitions:

* `Unjar.Findings.take` — what is known once an entry has been looked at;
* `Unjar.Findings.ofEntries` — **what the entries of an archive tell**;
* `Unjar.Rebuild.dependenciesOf`, `Unjar.Rebuild.Describes` — what follows from that: the
  dependencies, and the descriptor in its file.

Main results:

* `Unjar.Rebuild.take_of_scanEntry`, `Unjar.Rebuild.ofEntries_of_scan` — an entry that is scanned,
  and a scan, find what is told;
* `Unjar.Rebuild.scan_none_returns`, `Unjar.Rebuild.inspect_returns` — a scan that writes nothing,
  and an inspection, return where there is something to tell;
* `Unjar.Rebuild.findings_of_run` — what a run has found, reported and written;
* `Unjar.Rebuild.inspection_of_run` — **an inspection agrees with every run that returns**, and so do
  the runs with one another.
-/

set_option autoImplicit false

namespace Unjar

namespace Findings

/-! ### What entries tell -/

/-- What is known once an entry has been looked at. -/
def take (content : ArchiveContent) (f : Findings) (entry : ArchiveEntry) :
    Except Xml.EncodingFault Findings :=
  (f.examine content entry (Rebuild.bytesOf content entry)).map (f.record entry)

/-- **What entries tell**, looked at one after the other. -/
def ofEntries (content : ArchiveContent) (f : Findings) (entries : List ArchiveEntry) :
    Except Xml.EncodingFault Findings :=
  entries.foldlM (take content) f

variable {content : ArchiveContent} {f : Findings} {entry : ArchiveEntry}
  {entries : List ArchiveEntry}

theorem ofEntries_concat : ofEntries content f (entries ++ [entry]) =
    ofEntries content f entries >>= fun g => take content g entry := by
  simp [ofEntries, List.foldlM_append]

end Findings

namespace Rebuild

/-! ### Scans -/

section

variable {decompiler : Option Decompiler} {project : Option Path} {content : ArchiveContent}
  {job : RebuildJob} {s s' : RebuildState} {u : Unit}

/-- **An entry that is scanned** leaves the findings that it tells, whatever is written for it. -/
theorem take_of_scanEntry {entry : ArchiveEntry}
    (h : Returns (scanEntry decompiler project content entry) s u s') :
    s.findings.take content entry = .ok s'.findings := by
  obtain ⟨finding, hfinding, hfindings, -⟩ := accounts_of_scanEntry h
  rw [Findings.take, hfinding, hfindings]
  rfl

/-- **A scan** leaves the findings that the entries tell. -/
theorem ofEntries_of_scan (h : Returns (scan job project content) s u s') :
    s.findings.ofEntries content (Archive.entries job.settings content) = .ok s'.findings := by
  refine h.forM_invariant
    (fun done t => s.findings.ofEntries content done = .ok t.findings) ?_ rfl
  intro done entry t t' v ht hentry
  rw [Findings.ofEntries_concat, ht]
  exact take_of_scanEntry hentry

/-- Without a project an entry is looked at, and that is all. -/
theorem scanEntry_none_returns {entry : ArchiveEntry} {findings : Findings}
    (h : s.findings.take content entry = .ok findings) :
    Returns (scanEntry decompiler none content entry) s () { s with findings } := by
  unfold Findings.take bytesOf at h
  simp only [Returns, scanEntry, outcome_bind, outcome_examineEntry]
  generalize (Archive.read? content entry.path).getD [] = bytes at h
  cases hexamine : s.findings.examine content entry bytes with
  | error fault =>
      rw [hexamine] at h
      cases h
  | ok finding =>
      rw [hexamine] at h
      cases h
      rfl

theorem scanEntry_none_fails {entry : ArchiveEntry} {fault : Xml.EncodingFault}
    (h : s.findings.take content entry = .error fault) :
    outcome (scanEntry decompiler none content entry) s = (.error (.encoding fault), s) := by
  unfold Findings.take bytesOf at h
  simp only [scanEntry, outcome_bind, outcome_examineEntry]
  generalize (Archive.read? content entry.path).getD [] = bytes at h
  cases hexamine : s.findings.examine content entry bytes with
  | error fault =>
      rw [hexamine] at h
      cases h
      rfl
  | ok finding =>
      rw [hexamine] at h
      cases h

/-- **Without a project a scan** returns when its entries have something to tell, and the findings are
all that it changes. -/
theorem scan_none_returns {findings : Findings}
    (h : s.findings.ofEntries content (Archive.entries job.settings content) = .ok findings) :
    Returns (scan job none content) s () { s with findings } := by
  unfold scan
  revert h
  generalize Archive.entries job.settings content = entries
  intro h
  induction entries generalizing s with
  | nil =>
      cases h
      rfl
  | cons entry entries ih =>
      obtain ⟨g, hg, h⟩ := bind_eq_ok.mp h
      exact returns_bind.mpr ⟨(), { s with findings := g }, scanEntry_none_returns hg, ih h⟩

/-- Without a project a scan fails where an entry has nothing to tell. -/
theorem scan_none_fails {fault : Xml.EncodingFault}
    (h : s.findings.ofEntries content (Archive.entries job.settings content) = .error fault) :
    ∃ t, outcome (scan job none content) s = (.error (.encoding fault), t) := by
  unfold scan
  revert h
  generalize Archive.entries job.settings content = entries
  intro h
  induction entries generalizing s with
  | nil => cases h
  | cons entry entries ih =>
      have hcons : (entry :: entries).forM (scanEntry job.decompiler none content) =
          (scanEntry job.decompiler none content entry >>= fun _ =>
            entries.forM (scanEntry job.decompiler none content)) := rfl
      rw [hcons, outcome_bind]
      rcases bind_eq_error h with hfault | ⟨g, hg, h⟩
      · exact ⟨s, by rw [scanEntry_none_fails hfault]⟩
      · rw [show outcome (scanEntry job.decompiler none content entry) s = _ from
          scanEntry_none_returns hg]
        exact ih h

end

/-! ### Runs and inspections -/

section

variable {job : RebuildJob} {content : ArchiveContent} {s s' : RebuildState}

/-- What a resolver finds in what was told. -/
def dependenciesOf (resolver : Resolver) (found : Findings) : DependencySet :=
  resolver.resolve found.corpus found.classPath found.embedded

/-- The descriptor that follows from dependencies and findings stands in its file. -/
def Describes (job : RebuildJob) (report : RebuildReport) (s : RebuildState) : Prop :=
  ∃ pom, (descriptorOf job report.dependencies s.findings.embedded).render = .ok pom ∧
    s.tree.file? (Path.normalize s.tree.workingDirectory report.descriptor) =
      some (.file (Utf8.encode pom))

/-- Filling a project finds what the entries tell, reports the dependencies that follow and writes
the descriptor that does. -/
theorem findings_of_fill {project : Path} {report : RebuildReport}
    (h : Returns (fill job project content) s report s') :
    s.findings.ofEntries content (Archive.entries job.settings content) = .ok s'.findings ∧
      report.dependencies = dependenciesOf job.resolver s'.findings ∧
      Describes job report s' := by
  obtain ⟨_, s₁, hscan, h⟩ := returns_bind.mp h
  obtain ⟨_, s₂, hzero, hscan⟩ := returns_bind.mp hscan
  obtain rfl := returns_modify.mp hzero
  obtain ⟨before, detail, s₃, after, hbody, rfl⟩ := inPhase_returns hscan
  obtain ⟨_, s₄, hentries, hbody⟩ := returns_bind.mp hbody
  replace hbody := returns_get_bind.mp hbody
  obtain ⟨-, rfl⟩ := returns_pure.mp hbody
  have hfound := ofEntries_of_scan hentries
  -- resolving and assembling read the findings and leave them
  obtain ⟨dependencies, s₅, hresolve, h⟩ := returns_bind.mp h
  obtain ⟨before', detail', s₆, after', hbody, rfl⟩ := inPhase_returns hresolve
  obtain ⟨_, s₇, hget, hbody⟩ := returns_bind.mp hbody
  obtain ⟨hdependencies, rfl⟩ := returns_pure.mp hbody
  replace hget := returns_get_bind.mp hget
  obtain ⟨rfl, rfl⟩ := returns_pure.mp hget
  obtain ⟨rfl, -⟩ := Prod.mk.inj hdependencies
  obtain ⟨descriptor, s₈, hdescriptor, h⟩ := returns_bind.mp h
  obtain ⟨pom, t, progress, rfl, hpom, hwrites, -⟩ := writeDescriptor_returns hdescriptor
  replace h := returns_get_bind.mp h
  obtain ⟨rfl, rfl⟩ := returns_pure.mp h
  refine ⟨hfound, rfl, pom, hpom, ?_⟩
  dsimp only
  rw [hwrites.working, hwrites.files, if_pos rfl]

/-- Making the directories tells nothing. -/
theorem findings_of_scaffold {project : Path} {u : Unit}
    (h : Returns (scaffold project) s u s') : s'.findings = s.findings := by
  obtain ⟨before, detail, s₁, after, hbody, rfl⟩ := inPhase_returns h
  obtain ⟨_, s₂, hwriting, hbody⟩ := returns_bind.mp hbody
  obtain ⟨-, rfl⟩ := returns_pure.mp hbody
  obtain ⟨t, -, rfl⟩ := writing_returns hwriting
  rfl

/-- Nor does leaving out the decompiler. -/
theorem findings_of_skipDecompiling {u : Unit} (h : Returns (skipDecompiling job) s u s') :
    s'.findings = s.findings := by
  unfold skipDecompiling at h
  split at h
  · rw [note_returns h]
  · obtain ⟨-, rfl⟩ := returns_pure.mp h
    rfl

/-- **A run** that returns has found what the entries of its archive tell, and written its
descriptor. -/
theorem findings_of_run {report : RebuildReport} (h : Returns (run job) s report s') :
    ∃ content, ArchiveReader.contentOf job.settings job.archive s.tree = .ok content ∧
      s.findings.ofEntries content (Archive.entries job.settings content) = .ok s'.findings ∧
      report.dependencies = dependenciesOf job.resolver s'.findings ∧ Describes job report s' := by
  cases houtput : job.output with
  | none =>
      unfold run at h
      rw [houtput] at h
      exact absurd h not_returns_throw
  | some output =>
      rw [Returns, outcome_run houtput] at h
      split at h
      · next content hcontent =>
        obtain ⟨_, s₁, hscaffold, h⟩ := returns_bind.mp h
        obtain ⟨_, s₂, hskip, hfill⟩ := returns_bind.mp h
        have hknown : s₂.findings = s.findings :=
          (findings_of_skipDecompiling hskip).trans (findings_of_scaffold hscaffold)
        exact ⟨content, hcontent, hknown ▸ findings_of_fill hfill⟩
      · simp at h

/-- **An inspection** returns when the archive can be opened and its entries have something to tell. -/
theorem inspect_returns {findings : Findings}
    (hcontent : ArchiveReader.contentOf job.settings job.archive s.tree = .ok content)
    (hfound : s.findings.ofEntries content (Archive.entries job.settings content) = .ok findings) :
    ∃ progress, Returns (inspect job) s (dependenciesOf job.resolver findings)
      { s with findings, progress } := by
  have hscan : ∀ progress, outcome (scan job none content) { s with progress } =
      (.ok (), { s with findings, progress }) :=
    fun progress => scan_none_returns (s := { s with progress }) hfound
  simp only [Returns, inspect, resolve, outcome_bind, outcome_openArchive, hcontent,
    Except.mapError, outcome_inPhase, hscan, outcome_get, outcome_pure]
  exact ⟨_, rfl⟩

/-- An inspection fails where an entry has nothing to tell. -/
theorem inspect_fails {fault : Xml.EncodingFault}
    (hcontent : ArchiveReader.contentOf job.settings job.archive s.tree = .ok content)
    (hfault : s.findings.ofEntries content (Archive.entries job.settings content) = .error fault) :
    ∃ t, outcome (inspect job) s = (.error (.encoding fault), t) := by
  obtain ⟨t, hscan⟩ : ∃ t, outcome (scan job none content)
      { s with progress := (s.progress.enter "scan".toList).2 } = (.error (.encoding fault), t) :=
    scan_none_fails hfault
  simp only [inspect, outcome_bind, outcome_openArchive, hcontent, Except.mapError,
    outcome_inPhase, hscan]
  exact ⟨_, rfl⟩

/-- **An inspection agrees with a run.**  If a run returns, then an inspection of the same archive
under the same settings and with the same resolver returns its dependencies and leaves the same
findings and all files as they were.  Neither the decompiler nor the output directory, nor what else
is stored beside the archive, has a say in it: every other run that returns agrees too. -/
theorem inspection_of_run {tree tree' : FileTree} {clock clock' : List Float}
    {report : RebuildReport} (output : Option Path) (decompiler : Option Decompiler)
    (hcontent : ArchiveReader.contentOf job.settings job.archive tree' =
      ArchiveReader.contentOf job.settings job.archive tree)
    (hrun : (run job).run.run (.start clock tree) = (.ok report, s)) :
    (∃ s', (inspect { job with output, decompiler }).run.run (.start clock' tree') =
        (.ok report.dependencies, s') ∧ s'.findings = s.findings ∧ s'.tree = tree') ∧
      ∀ report' s', (run { job with output, decompiler }).run.run (.start clock' tree') =
          (.ok report', s') →
        report'.dependencies = report.dependencies ∧ s'.findings = s.findings := by
  obtain ⟨content, hopen, hfound, hdependencies, -⟩ := findings_of_run hrun
  rw [hdependencies]
  constructor
  · obtain ⟨progress, hinspect⟩ : ∃ progress,
        Returns (inspect { job with output, decompiler }) (.start clock' tree')
          (dependenciesOf job.resolver s.findings)
          { RebuildState.start clock' tree' with findings := s.findings, progress } :=
      inspect_returns (hcontent.trans hopen) hfound
    exact ⟨_, hinspect, rfl, rfl⟩
  · intro report' s' hrun'
    obtain ⟨content', hopen', hfound', hdependencies', -⟩ := findings_of_run hrun'
    obtain rfl : content' = content := Except.ok.inj (hopen'.symm.trans (hcontent.trans hopen))
    have hsame : s'.findings = s.findings := Except.ok.inj (hfound'.symm.trans hfound)
    exact ⟨hsame ▸ hdependencies', hsame⟩

end

/-- An archive with a class, one that is malformed and a class path, beside the project of an earlier
run. -/
def listedTree : FileTree where
  nodes :=
    [(["app.jar".toList], .archive
        [("META-INF/MANIFEST.MF".toList, Utf8.encode "Class-Path: lib/a-1.2.jar\r\n".toList),
        ("A.class".toList,
          [0xCA, 0xFE, 0xBA, 0xBE, 0, 0, 0, 52, 0, 3, 1, 0, 1, 65, 7, 0, 1, 0, 0x21, 0, 2, 0, 0, 0,
            0, 0, 0, 0, 0, 0, 0]),
        ("B.class".toList, [0])]),
      (["out".toList], .directory),
      (["out".toList, "app".toList], .directory),
      (["out".toList, "app".toList, "old".toList], .file [0])]
  workingDirectory := []

/-- The job of rebuilding it with a decompiler that fails on the class. -/
def listedJob : RebuildJob where
  archive := .ofString "app.jar"
  output := some (.ofString "out")
  settings := .default
  resolver := .default
  decompiler := some (SketchDecompiler.decompile ⟨[], ["A.class".toList]⟩)

theorem inspection_of_run_sample :
    ∃ report s, (run listedJob).run.run (.start [] listedTree) = (.ok report, s) ∧
      report.dependencies.size = 4 ∧
      report.malformedClasses = ["B.class".toList] ∧
      report.decompilerFailures = ["A.class".toList] ∧
      ∃ s', (inspect { listedJob with output := none, decompiler := none }).run.run
          (.start [] listedTree) = (.ok report.dependencies, s') ∧
        s'.findings = s.findings ∧ s'.tree = listedTree := by
  obtain ⟨report, s, hend, hlists⟩ : ∃ report s,
      (run listedJob).run.run (.start [] listedTree) = (.ok report, s) ∧
        (report.dependencies.size, report.malformedClasses, report.decompilerFailures) =
          (4, ["B.class".toList], ["A.class".toList]) :=
    exists_eq_ok_of_map (by decide +kernel)
  obtain ⟨hsize, hmalformed, hfailures⟩ := by simpa only [Prod.mk.injEq] using hlists
  exact ⟨report, s, hend, hsize, hmalformed, hfailures,
    (inspection_of_run none none rfl hend).1⟩

end Rebuild

end Unjar
