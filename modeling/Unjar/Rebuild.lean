import Unjar.Decompiler
import Unjar.Findings
import Unjar.Placement
import Unjar.Pom.Assembly
import Unjar.Pom.File
import Unjar.Progress
import Unjar.ProjectLayout

/-!
Rebuilding a project.

One archive goes in and one project comes out.  The work has four phases, strictly one after the
other: the directories of the project are made anew; the entries of the archive are scanned, their
classes decompiled and placed, their resources copied; the dependencies are resolved; and the
descriptor is assembled and written.  Whatever fails ends the run, so that a project without a
descriptor is one that was not finished.  A malformed class and a class on which the decompiler
fails are no failures of the run.

An archive can also be inspected: it is scanned and its dependencies are resolved, but nothing is
written.

Main definitions:

* `Unjar.RebuildJob`, `Unjar.RebuildState` — what is to be done, and what has been done so far;
* `Unjar.RebuildFault` — what ends a run;
* `Unjar.Rebuild.run`, `Unjar.RebuildReport` — rebuilding, and what it reports;
* `Unjar.Rebuild.inspect` — resolving the dependencies only.
-/

set_option autoImplicit false

namespace Unjar

/-- **What is to be done.** -/
structure RebuildJob where
  archive : Path
  /-- The directory that receives the project. -/
  output : Option Path
  settings : Settings
  /-- The rules by which dependencies are found. -/
  resolver : Resolver
  /-- The decompiler, if classes are to be decompiled. -/
  decompiler : Option Decompiler

/-- **What ends a run.** -/
inductive RebuildFault where
  /-- There is no directory for the project. -/
  | noOutput
  /-- The archive cannot be opened. -/
  | archive (fault : ArchiveFault)
  /-- A file or directory cannot be written. -/
  | write (fault : WriteFault)
  /-- A packaged descriptor is written in an encoding that cannot be read. -/
  | encoding (fault : Xml.EncodingFault)
  /-- The descriptor cannot be rendered. -/
  | render (fault : RenderFault)
  /-- The decompiler broke off. -/
  | obstacle (cause : Obstacle)
deriving DecidableEq, Repr

/-- What ended a run, in words. -/
def RebuildFault.message : RebuildFault → Text
  | noOutput => "output_dir is required to rebuild a project".toList
  | archive fault => fault.message
  | write fault => fault.message
  | encoding fault => fault.message
  | render fault => fault.message
  | obstacle cause => cause.message

/-- **What has been done so far.** -/
structure RebuildState where
  /-- What the archive told. -/
  findings : Findings
  /-- The classes handed to the decompiler, by entry and bytes, in order. -/
  decompiled : List (Text × Bytes)
  /-- The texts that the decompiler pushed, in order. -/
  pushed : List Text
  /-- The commands that the decompiler started, each with the class that it was given. -/
  commands : List (List Text × Bytes)
  /-- The entries on which the decompiler failed, in order. -/
  decompilerFailures : List Text
  /-- The sources placed. -/
  registry : WriteRegistry
  /-- The number of resources copied. -/
  resourcesCopied : Nat
  /-- The phases. -/
  progress : Progress
  tree : FileTree

namespace RebuildState

/-- Before the first phase. -/
def start (clock : List Float) (tree : FileTree) : RebuildState where
  findings := .empty
  decompiled := []
  pushed := []
  commands := []
  decompilerFailures := []
  registry := .empty
  resourcesCopied := 0
  progress := .start clock
  tree := tree

/-- Where the sources and resources of a project go. -/
def placement (s : RebuildState) (project : Path) : Placement where
  sourceRoot := project.join ProjectLayout.mainSources
  resourceRoot := project.join ProjectLayout.mainResources
  registry := s.registry
  resourcesCopied := s.resourcesCopied

end RebuildState

/-- A part of a run: its result or what ended it, and in either case the state after it. -/
abbrev Rebuilding (α : Type) := ExceptT RebuildFault (StateM RebuildState) α

/-- **What a run reports.** -/
structure RebuildReport where
  /-- The directory of the project. -/
  project : Path
  /-- The file of its descriptor. -/
  descriptor : Path
  dependencies : DependencySet
  /-- The number of classes that could be read. -/
  classesScanned : Nat
  /-- The number of source files. -/
  sourcesWritten : Nat
  /-- The number of resources copied. -/
  resourcesCopied : Nat
  /-- The entries of malformed classes. -/
  malformedClasses : List Text
  /-- The entries on which the decompiler failed. -/
  decompilerFailures : List Text
  /-- The source files that were written again. -/
  collisions : List Path
  /-- The entry of the descriptor that the archive carries. -/
  embeddedSource : Option Text

namespace Rebuild

/-! ### Parts of a run -/

/-- A change of the record of phases. -/
def note (change : Progress → Progress) : Rebuilding Unit :=
  modify fun s => { s with progress := change s.progress }

/-- **A phase.**  Its part of the run gives a result and a detail; the phase is completed with that
detail, or has failed with the words of what ended the run. -/
def inPhase {α : Type} (name : String) (body : Rebuilding (α × Text)) : Rebuilding α := do
  let place ← modifyGet fun s =>
    let (place, progress) := s.progress.enter name.toList
    (place, { s with progress })
  let (result, detail) ← tryCatch body fun fault => do
    note (·.fail place fault.message)
    throw fault
  note fun progress => (progress.describe place detail).complete place
  pure result

/-- A change of the files that may fail. -/
def writing {ε α : Type} (faultOf : ε → RebuildFault)
    (act : FileTree → Except ε α × FileTree) : Rebuilding α := do
  let (result, tree) := act (← get).tree
  modify fun s => { s with tree }
  match result with
  | .ok a => pure a
  | .error fault => throw (faultOf fault)

/-- Placing a source or a resource in a project. -/
def placing {α : Type} (project : Path)
    (act : Placement → FileTree → Except WriteFault α × Placement × FileTree) :
    Rebuilding Unit := do
  let s ← get
  let (result, placement, tree) := act (s.placement project) s.tree
  set { s with
    registry := placement.registry
    resourcesCopied := placement.resourcesCopied
    tree := tree }
  match result with
  | .ok _ => pure ()
  | .error fault => throw (.write fault)

def openArchive (job : RebuildJob) : Rebuilding ArchiveContent := do
  match ArchiveReader.contentOf job.settings job.archive (← get).tree with
  | .ok content => pure content
  | .error fault => throw (.archive fault)

/-! ### Scanning -/

/-- A text that the decompiler pushes: it is noted and placed. -/
def push (project : Path) (text : Text) : Rebuilding Unit := do
  modify fun s => { s with pushed := s.pushed ++ [text] }
  placing project (·.accept text)

/-- One class decompiled and its sources placed.  When the decompiler fails, what it pushed before
stays placed. -/
def decompileClass (decompiler : Decompiler) (project : Path) (name : Text) (bytes : Bytes) :
    Rebuilding Unit := do
  let s ← get
  let work := decompiler.work s.tree s.decompiled bytes name
  modify fun s => { s with
    decompiled := s.decompiled ++ [(name, bytes)]
    commands := s.commands ++ work.commands }
  work.pushed.forM fun (text, _) => push project text
  match work.outcome with
  | .finished => pure ()
  | .failed _ => modify fun s => { s with decompilerFailures := s.decompilerFailures ++ [name] }
  | .obstructed cause => throw (.obstacle cause)

/-- What an entry tells, recorded. -/
def examineEntry (content : ArchiveContent) (entry : ArchiveEntry) (bytes : Bytes) :
    Rebuilding Finding := do
  match (← get).findings.examine content entry bytes with
  | .error fault => throw (.encoding fault)
  | .ok finding =>
    modify fun s => { s with findings := s.findings.record entry finding }
    pure finding

/-- What is written for an entry. -/
def writeEntry (decompiler : Option Decompiler) (project : Path) (entry : ArchiveEntry)
    (bytes : Bytes) : Finding → Rebuilding Unit
  | .classReferences _ =>
    match decompiler with
    | some decompiler => decompileClass decompiler project entry.path bytes
    | none => pure ()
  | .resource => placing project (·.copyResource entry.relativePath bytes)
  | _ => pure ()

/-- One entry.  Without a project nothing is written. -/
def scanEntry (decompiler : Option Decompiler) (project : Option Path) (content : ArchiveContent)
    (entry : ArchiveEntry) : Rebuilding Unit := do
  let bytes := (Archive.read? content entry.path).getD []
  let finding ← examineEntry content entry bytes
  match project with
  | some project => writeEntry decompiler project entry bytes finding
  | none => pure ()

/-- **All entries**, in order. -/
def scan (job : RebuildJob) (project : Option Path) (content : ArchiveContent) : Rebuilding Unit :=
  (Archive.entries job.settings content).forM (scanEntry job.decompiler project content)

/-- The dependencies that follow from what was found. -/
def resolve (job : RebuildJob) : Rebuilding DependencySet := do
  let found := (← get).findings
  pure (job.resolver.resolve found.corpus found.classPath found.embedded)

/-! ### Runs -/

/-- A number with its name. -/
def counted (name : String) (n : Nat) : Text := name.toList ++ '=' :: Text.ofNat n

/-- The directory of the project: it is named after the archive. -/
def projectIn (job : RebuildJob) (output : Path) : Path := output.joinText job.archive.stem

/-- The descriptor of the project. -/
def descriptorOf (job : RebuildJob) (dependencies : DependencySet)
    (embedded : Option EmbeddedDescriptor) : ProjectDescriptor :=
  let identity :=
    ProjectIdentity.ofArchive job.archive.stem (Text.toLower job.archive.suffix) job.settings
  .assemble identity dependencies embedded job.settings

/-- What stops a descriptor from being written stops the run. -/
def ofDescriptorFault : DescriptorFault → RebuildFault
  | .render fault => .render fault
  | .write fault => .write fault

/-- The directories of the project are made. -/
def scaffold (project : Path) : Rebuilding Unit :=
  inPhase "scaffold" do
    writing .write (ProjectLayout.create project)
    pure ((), project.toText)

/-- The entries are scanned and what they hold is written. -/
def scanInto (job : RebuildJob) (project : Path) (content : ArchiveContent) : Rebuilding Unit := do
  modify fun s => { s with resourcesCopied := 0 }
  inPhase "scan" do
    scan job (some project) content
    let s ← get
    let counts := [counted "classes" s.findings.classesScanned,
      counted "sources" s.registry.records.length, counted "resources" s.resourcesCopied]
    pure ((), joinWith ", ".toList counts)

/-- The descriptor is written; the result is its file. -/
def writeDescriptor (job : RebuildJob) (project : Path) (dependencies : DependencySet) :
    Rebuilding Path :=
  inPhase "assemble" do
    let d := descriptorOf job dependencies (← get).findings.embedded
    let file ← writing ofDescriptorFault
      (d.writeTo (project.joinText ProjectDescriptor.fileName))
    pure (file, file.toText)

/-- Filling the directories of a project that have been made. -/
def fill (job : RebuildJob) (project : Path) (content : ArchiveContent) :
    Rebuilding RebuildReport := do
  scanInto job project content
  let dependencies ← inPhase "resolve" do
    let dependencies ← resolve job
    pure (dependencies, counted "dependencies" dependencies.size)
  let descriptor ← writeDescriptor job project dependencies
  let s ← get
  pure {
    project
    descriptor
    dependencies
    classesScanned := s.findings.classesScanned
    sourcesWritten := s.registry.destinations.length
    resourcesCopied := s.resourcesCopied
    malformedClasses := s.findings.malformedClasses
    decompilerFailures := s.decompilerFailures
    collisions := s.registry.collisions
    embeddedSource := s.findings.embedded.map EmbeddedDescriptor.sourcePath }

/-- **Rebuilding the project of an archive.** -/
def run (job : RebuildJob) : Rebuilding RebuildReport := do
  match job.output with
  | none => throw .noOutput
  | some output =>
    let content ← openArchive job
    let project := projectIn job output
    scaffold project
    if job.decompiler.isNone then
      note (·.skip "decompile".toList "no decompiler configured".toList)
    fill job project content

/-- **Inspecting an archive**: its dependencies are resolved and nothing is written. -/
def inspect (job : RebuildJob) : Rebuilding DependencySet := do
  let content ← openArchive job
  inPhase "scan" do
    scan job none content
    pure ((), counted "classes" (← get).findings.classesScanned)
  inPhase "resolve" do
    pure (← resolve job, [])

end Rebuild

end Unjar
