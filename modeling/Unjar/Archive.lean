import Unjar.FileTree
import Unjar.Manifest
import Unjar.Settings
import Unjar.Text.Quoted
import Unjar.Text.Utf8

/-!
Archives.

An archive is a sequence of named entries; a name may occur more than once, and whoever asks for it
gets the last.  Entries are sorted into four kinds by their names alone: the manifest, packaged
project descriptors, classes, and the resources beneath a directory of embedded classes.  All other
entries, and those in excluded directories, are passed over.

Main definitions:

* `Unjar.EntryKind`, `Unjar.ArchiveEntry`, `Unjar.Archive.classify` — kinds of entries;
* `Unjar.Archive.entries` — the classified entries in order;
* `Unjar.ArchiveReader` — an archive file that is opened and closed;
* `Unjar.ArchiveFault` — what can go wrong.
-/

set_option autoImplicit false

namespace Unjar

/-- The kinds of entries. -/
inductive EntryKind where
  /-- A compiled class. -/
  | classFile
  /-- A file that belongs to the resources of the project. -/
  | resource
  /-- A packaged project descriptor. -/
  | descriptor
  | manifest
deriving DecidableEq, Repr

/-- A classified entry. -/
structure ArchiveEntry where
  /-- The name of the entry. -/
  path : Text
  kind : EntryKind
  /-- The name beneath the directory of embedded classes. -/
  relativePath : Text
deriving DecidableEq, Repr

/-- The entries of an archive, by name and bytes, in order. -/
abbrev ArchiveContent := List (Text × Bytes)

namespace Archive

/-! ### Classification -/

/-- The name of the manifest. -/
def manifestPath : Text := "META-INF/MANIFEST.MF".toList

/-- The file name of a project descriptor. -/
def descriptorName : Text := "pom.xml".toList

/-- The directory of packaged descriptors. -/
def descriptorRoot : Text := "META-INF/maven/".toList

/-- The end of the name of a class. -/
def classSuffix : Text := ".class".toList

/-- Whether a name is that of a packaged descriptor. -/
def isDescriptor (name : Text) : Bool :=
  name == descriptorName ||
    (descriptorRoot.isPrefixOf name && ('/' :: descriptorName).isSuffixOf name)

/-- Whether a name lies in an excluded directory. -/
def isExcluded (settings : Settings) (name : Text) : Bool :=
  settings.excludedPrefixes.any fun start => start.isPrefixOf name

/-- What is left of a name beneath the first directory of embedded classes that it lies in. -/
def beneathRoot (settings : Settings) (name : Text) : Option Text :=
  settings.embeddedClassRoots.findSome? fun root => dropPrefix? root name

/-- **The classified entry of a name**; none if it is passed over. -/
def classify (settings : Settings) (name : Text) : Option ArchiveEntry :=
  if name == manifestPath then some ⟨name, .manifest, name⟩
  else if isDescriptor name then some ⟨name, .descriptor, name⟩
  else
    let beneath := beneathRoot settings name
    let relative := beneath.getD name
    if isExcluded settings name || (beneath.isSome && isExcluded settings relative) then none
    else if classSuffix.isSuffixOf name then some ⟨name, .classFile, relative⟩
    else if beneath.isSome then some ⟨name, .resource, relative⟩
    else none

def isDirectoryName (name : Text) : Bool := ['/'].isSuffixOf name

/-- The classified entry of an entry; directories have none. -/
def classifyEntry (settings : Settings) (entry : Text × Bytes) : Option ArchiveEntry :=
  if isDirectoryName entry.1 then none else classify settings entry.1

/-- **The classified entries of an archive**, in order. -/
def entries (settings : Settings) (content : ArchiveContent) : List ArchiveEntry :=
  content.filterMap (classifyEntry settings)

/-- The bytes under a name: those of its last entry. -/
def read? (content : ArchiveContent) (name : Text) : Option Bytes :=
  (content.reverse.find? fun entry => entry.1 == name).map Prod.snd

/-- The words of the class path in the manifest; without a manifest there are none. -/
def manifestClassPath (content : ArchiveContent) : List Text :=
  match read? content manifestPath with
  | some bytes => Manifest.classPath (Utf8.decodeLossy bytes)
  | none => []

end Archive

/-! ### Faults -/

/-- Why a file cannot be opened as an archive. -/
inductive OpenFault where
  /-- There is no such file. -/
  | notFound
  /-- The file has none of the extensions of archives. -/
  | wrongExtension (expected : List Text)
  /-- The content is not that of an archive. -/
  | notArchive
deriving DecidableEq, Repr

/-- **What can go wrong with an archive.** -/
inductive ArchiveFault where
  /-- The file cannot be opened. -/
  | invalid (path : Path) (reason : OpenFault)
  | notOpen (path : Path)
  | noEntry (name : Text)
deriving DecidableEq, Repr

/-- A reason in words. -/
def OpenFault.message : OpenFault → Text
  | notFound => "file not found".toList
  | wrongExtension expected => "expected one of ".toList ++ joinWith ", ".toList expected
  | notArchive => "not a zip archive (File is not a zip file)".toList

/-- A fault in words. -/
def ArchiveFault.message : ArchiveFault → Text
  | invalid path reason =>
    "Invalid archive ".toList ++ path.toText ++ ": ".toList ++ reason.message
  | notOpen path => "archive ".toList ++ path.toText ++ " is not open".toList
  | noEntry name =>
    "There is no item named ".toList ++ Text.quoted name ++ " in the archive".toList

/-! ### Reading an archive file -/

/-- An archive file and, while it is open, its content. -/
structure ArchiveReader where
  /-- The path of the file. -/
  path : Path
  /-- The settings that classify its entries. -/
  settings : Settings
  /-- The content, while the file is open. -/
  content : Option ArchiveContent

namespace ArchiveReader

/-- A reader that is not open. -/
def closed (path : Path) (settings : Settings) : ArchiveReader := ⟨path, settings, none⟩

/-- The name of the archive without its extension. -/
def stem (r : ArchiveReader) : Text := r.path.stem

/-- The extension of the archive, in lower case. -/
def extension (r : ArchiveReader) : Text := Text.toLower r.path.suffix

/-- The content of the archive file that a path leads to. -/
def contentOf (settings : Settings) (path : Path) (tree : FileTree) :
    Except ArchiveFault ArchiveContent :=
  if !tree.isFile path then .error (.invalid path .notFound)
  else if !settings.archiveExtensions.contains (Text.toLower path.suffix) then
    .error (.invalid path (.wrongExtension settings.archiveExtensions))
  else match tree.stat path with
    | some (.archive content) => .ok content
    | _ => .error (.invalid path .notArchive)

/-- Opening the file.  When that fails the reader stays as it is. -/
def opened (r : ArchiveReader) (tree : FileTree) : Except ArchiveFault ArchiveReader :=
  (contentOf r.settings r.path tree).map fun content => { r with content := some content }

/-- Closing the file; a closed one stays closed. -/
def close (r : ArchiveReader) : ArchiveReader := { r with content := none }

def openContent (r : ArchiveReader) : Except ArchiveFault ArchiveContent :=
  match r.content with
  | some content => .ok content
  | none => .error (.notOpen r.path)

/-- The classified entries, in order. -/
def entries (r : ArchiveReader) : Except ArchiveFault (List ArchiveEntry) :=
  r.openContent.map (Archive.entries r.settings)

/-- The bytes under a name. -/
def read (r : ArchiveReader) (name : Text) : Except ArchiveFault Bytes := do
  let content ← r.openContent
  match Archive.read? content name with
  | some bytes => pure bytes
  | none => throw (.noEntry name)

/-- The words of the class path in the manifest. -/
def manifestClassPath (r : ArchiveReader) : Except ArchiveFault (List Text) :=
  r.openContent.map Archive.manifestClassPath

end ArchiveReader

/-! ### Lazy passes -/

/-- A pass over the entries of an archive that yields one entry at a time.  It looks at the archive
when its first entry is asked for; after that it goes on even when the archive is closed. -/
inductive ArchivePass where
  /-- No entry has been asked for yet. -/
  | fresh
  /-- The entries still to come. -/
  | under (rest : List ArchiveEntry)

namespace ArchivePass

/-- The next entry; after a failure, and at the end, there is none. -/
def next (pass : ArchivePass) (r : ArchiveReader) :
    Except ArchiveFault (Option ArchiveEntry) × ArchivePass :=
  match pass with
  | fresh =>
    match r.entries with
    | .ok [] => (.ok none, under [])
    | .ok (entry :: rest) => (.ok (some entry), under rest)
    | .error fault => (.error fault, under [])
  | under [] => (.ok none, under [])
  | under (entry :: rest) => (.ok (some entry), under rest)

end ArchivePass

end Unjar
