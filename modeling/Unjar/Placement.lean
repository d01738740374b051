import Unjar.FileTree
import Unjar.JavaSource
import Unjar.Text.Utf8

/-!
Placing sources and resources.

A source text is filed under the package and the type that it declares, whatever name it came
under; a later text for the same file replaces an earlier one, and such collisions are recorded.  A
resource keeps its path, unless that leads out of the directory of resources.

Main definitions:

* `Unjar.SourceRecord`, `Unjar.WriteRegistry` — what has been written where;
* `Unjar.Placement`, `Unjar.Placement.accept`, `Unjar.Placement.copyResource` — the two ways of
  placing;
* `Unjar.WriteFault` — a write that failed.
-/

set_option autoImplicit false

namespace Unjar

/-- A write that failed. -/
structure WriteFault where
  /-- What was to be written. -/
  path : Path
  /-- Why it was not. -/
  cause : FileFault
deriving DecidableEq, Repr

/-- A failed write in words. -/
def WriteFault.message (fault : WriteFault) : Text :=
  "Failed to write ".toList ++ fault.path.toText ++ ": ".toList ++ fault.cause.message

/-- A source that was placed. -/
structure SourceRecord where
  /-- The dotted name of the package; empty for none. -/
  package : Text
  /-- The name of the type. -/
  type : Text
  /-- The file. -/
  destination : Path
deriving DecidableEq, Repr

/-- **What has been written.** -/
structure WriteRegistry where
  /-- The sources placed, in order. -/
  records : List SourceRecord
  /-- The files that were written again, in order. -/
  collisions : List Path
deriving DecidableEq, Repr

namespace WriteRegistry

/-- The registry before the first write. -/
def empty : WriteRegistry := ⟨[], []⟩

/-- Whether a file has been written. -/
def hasWritten (r : WriteRegistry) (file : Path) : Bool :=
  r.records.any fun record => record.destination == file

/-- One more source placed. -/
def register (r : WriteRegistry) (record : SourceRecord) : WriteRegistry :=
  { records := r.records ++ [record]
    collisions :=
      if r.hasWritten record.destination then r.collisions ++ [record.destination]
      else r.collisions }

/-- The files written, each once. -/
def destinations (r : WriteRegistry) : List Path :=
  (r.records.map SourceRecord.destination).eraseDups

/-- The paths of the files written, in the order of their texts. -/
def destinationTexts (r : WriteRegistry) : List Text :=
  (r.destinations.map Path.toText).mergeSort Text.le

end WriteRegistry

/-- Where sources and resources go, and what has gone there. -/
structure Placement where
  /-- The directory of sources. -/
  sourceRoot : Path
  /-- The directory of resources. -/
  resourceRoot : Path
  /-- The sources placed. -/
  registry : WriteRegistry
  /-- The number of resources placed. -/
  resourcesCopied : Nat
deriving DecidableEq, Repr

namespace Placement

/-- The end of the name of a source file. -/
def sourceSuffix : Text := ".java".toList

/-- A placement before the first write of its own. -/
def start (sourceRoot resourceRoot : Path) (registry : WriteRegistry) : Placement :=
  ⟨sourceRoot, resourceRoot, registry, 0⟩

/-- The file for a type in a package given by its parts. -/
def destinationIn (p : Placement) (package : List Text) (type : Text) : Path :=
  (package.foldl Path.joinText p.sourceRoot).joinText (type ++ sourceSuffix)

/-- The file for a type in a package given by its dotted name. -/
def destination (p : Placement) (package type : Text) : Path :=
  p.destinationIn (if package.isEmpty then [] else splitOn '.' package) type

/-- Writing a file, with the directories above it. -/
def writeWithParents (file : Path) (content : Bytes) : FileOperation Unit := do
  FileTree.makeDirectories file.parent
  FileTree.writeFile file content

/-- A write, its fault naming the file. -/
def write (file : Path) (content : Bytes) (tree : FileTree) : Except WriteFault Unit × FileTree :=
  let (result, tree) := (writeWithParents file content).run.run tree
  (result.mapError fun cause => ⟨file, cause⟩, tree)

/-- A text that ends in a line feed. -/
def endLine (text : Text) : Text := if ['\n'].isSuffixOf text then text else text ++ ['\n']

/-- **Placing a source text.**  A text of blanks only is passed over. -/
def accept (p : Placement) (text : Text) (tree : FileTree) :
    Except WriteFault (Option SourceRecord) × Placement × FileTree :=
  if Text.isAllBlank text then (.ok none, p, tree)
  else
    let names := JavaSource.declaredNames text
    let file := p.destinationIn names.package names.typeName
    match write file (Utf8.encode (endLine text)) tree with
    | (.error fault, tree) => (.error fault, p, tree)
    | (.ok (), tree) =>
      let record : SourceRecord := ⟨names.packageName, names.typeName, file⟩
      (.ok (some record), { p with registry := p.registry.register record }, tree)

/-- **Placing a resource** under its path.  A path that does not lead strictly beneath the directory
of resources is passed over. -/
def copyResource (p : Placement) (relativePath : Text) (content : Bytes) (tree : FileTree) :
    Except WriteFault (Option Path) × Placement × FileTree :=
  let file := p.resourceRoot.joinText relativePath
  let normal := Path.normalize tree.workingDirectory
  if !Path.isBeneath (normal file) (normal p.resourceRoot) then (.ok none, p, tree)
  else match write file content tree with
    | (.error fault, tree) => (.error fault, p, tree)
    | (.ok (), tree) => (.ok (some file), { p with resourcesCopied := p.resourcesCopied + 1 }, tree)

end Placement

end Unjar
