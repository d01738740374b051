import Unjar.Path

/-!
A tree of files.

The tree is a finite map from locations to directories, files and archives; the root is a directory
that is always there.  Every component of a path but the last has to be a directory, and an
operation that fails half-way keeps what it has done.

A directory may be a link to a directory outside of the tree.  What stands there is reached through
the link as through any other directory, and a path that goes up again comes back to where the link
stands; a link shows only when a directory is to be removed with all beneath it, which is refused if
it is a link.  There are no links to files and none between places of the tree.

Main definitions:

* `Unjar.Node`, `Unjar.FileTree` — what stands at a location, and the tree;
* `Unjar.FileTree.locate`, `Unjar.FileTree.stat` — following a path;
* `Unjar.FileTree.makeDirectories`, `Unjar.FileTree.writeFile`, `Unjar.FileTree.removeTree`,
  `Unjar.FileTree.replaceFile` — the operations;
* `Unjar.FileTree.listing` — what stands beneath the working directory;
* `Unjar.FileTree.changes` — the steps from a tree to another.
-/

set_option autoImplicit false

namespace Unjar

/-- What stands at a location. -/
inductive Node where
  | directory
  | file (content : Bytes)
  /-- A file that is an archive, with its entries in order. -/
  | archive (entries : List (Text × Bytes))
deriving DecidableEq, Repr

def Node.isDirectory : Node → Bool
  | directory => true
  | _ => false

/-- Why an operation on files fails. -/
inductive FileFault where
  /-- A component of the path does not exist. -/
  | notFound
  /-- Something else stands where a directory is to be made. -/
  | alreadyExists
  /-- A component of the path is not a directory. -/
  | notDirectory
  /-- A directory stands where a file is to be written. -/
  | isDirectory
  /-- The directory cannot be removed by this name. -/
  | invalid
  /-- The directory that is to be removed is a link. -/
  | linked
deriving DecidableEq, Repr

/-- The number by which systems know a fault, if it is one of the system. -/
def FileFault.number? : FileFault → Option Nat
  | notFound => some 2
  | alreadyExists => some 17
  | notDirectory => some 20
  | isDirectory => some 21
  | invalid => some 22
  | linked => none

/-- A fault in words: for one of the system its number in brackets. -/
def FileFault.message (fault : FileFault) : Text :=
  match fault.number? with
  | some number => "[Errno ".toList ++ Text.ofNat number ++ [']']
  | none => "Cannot call rmtree on a symbolic link".toList

/-- **A tree of files.** -/
structure FileTree where
  /-- What stands where; the root is not listed. -/
  nodes : List (Location × Node)
  /-- Where relative paths begin. -/
  workingDirectory : Location
  /-- The directories that are links. -/
  links : List Location := []
deriving DecidableEq, Repr

/-- An operation: its result or a fault, and in either case the tree after it. -/
abbrev FileOperation (α : Type) := ExceptT FileFault (StateM FileTree) α

namespace FileTree

/-! ### Looking -/

/-- What stands at a location. -/
def get? (t : FileTree) (here : Location) : Option Node :=
  if here.isEmpty then some .directory else t.nodes.lookup here

/-- The location at the end of a way from a location that is known to be reached. -/
def follow (t : FileTree) (here : Location) : List Text → Except FileFault Location
  | [] => .ok here
  | part :: more =>
    match t.get? here with
    | some .directory => follow t (Path.step here part) more
    | some _ => .error .notDirectory
    | none => .error .notFound

/-- The location that a path leads to; its last component need not exist. -/
def locate (t : FileTree) (p : Path) : Except FileFault Location :=
  t.follow (if p.root = 0 then t.workingDirectory else []) p.parts

/-- What stands at the end of a path. -/
def stat (t : FileTree) (p : Path) : Option Node :=
  match t.locate p with
  | .ok here => t.get? here
  | .error _ => none

/-- Whether a path leads to a directory. -/
def isDirectory (t : FileTree) (p : Path) : Bool :=
  match t.stat p with
  | some node => node.isDirectory
  | none => false

/-- Whether a path leads to a file. -/
def isFile (t : FileTree) (p : Path) : Bool :=
  match t.stat p with
  | some node => !node.isDirectory
  | none => false

/-- Whether a path leads to anything. -/
def exists? (t : FileTree) (p : Path) : Bool := (t.stat p).isSome

/-! ### Changing -/

/-- A list of nodes with another node at a location. -/
def putIn (here : Location) (node : Node) : List (Location × Node) → List (Location × Node)
  | [] => [(here, node)]
  | (there, other) :: more =>
    if there = here then (here, node) :: more else (there, other) :: putIn here node more

def put (t : FileTree) (here : Location) (node : Node) : FileTree :=
  { t with nodes := putIn here node t.nodes }

/-- The tree without a location. -/
def erase (t : FileTree) (here : Location) : FileTree :=
  { t with nodes := t.nodes.filter fun (there, _) => there ≠ here }

/-- The tree with the locations that pass a test only. -/
def restrict (t : FileTree) (keep : Location → Bool) : FileTree :=
  { t with
    nodes := t.nodes.filter fun (there, _) => keep there
    links := t.links.filter keep }

/-- The tree without a location and all beneath it. -/
def prune (t : FileTree) (here : Location) : FileTree :=
  t.restrict fun there => !here.isPrefixOf there

/-- The location of a path in the present tree. -/
def target (p : Path) : FileOperation Location := do
  match (← get).locate p with
  | .ok here => pure here
  | .error fault => throw fault

/-- Making a directory in a directory that exists. -/
def makeDirectory (p : Path) : FileOperation Unit := do
  let here ← target p
  match (← get).get? here with
  | some _ => throw .alreadyExists
  | none => modify fun t => t.put here .directory

/-- The outcome of making a directory that may exist already. -/
def settle (p : Path) (fault : FileFault) : FileOperation Unit := do
  if (← get).isDirectory p then pure () else throw fault

/-- Making the directory of the first `depth` components of a path, and those above it where they
are missing.  A directory that exists already is no fault. -/
def makeDirectoriesTo (p : Path) : Nat → FileOperation Unit
  | 0 => do
    let here : Path := { p with parts := [] }
    tryCatch (makeDirectory here) fun fault =>
      if fault = .notFound then throw fault else settle here fault
  | depth + 1 => do
    let here : Path := { p with parts := p.parts.take (depth + 1) }
    tryCatch (makeDirectory here) fun fault =>
      if fault = .notFound then do
        makeDirectoriesTo p depth
        tryCatch (makeDirectory here) fun fault =>
          if fault = .notFound then throw fault else settle here fault
      else settle here fault

/-- **Making a directory** and those above it. -/
def makeDirectories (p : Path) : FileOperation Unit := makeDirectoriesTo p p.parts.length

/-- **Writing a file**, over one that exists or as a new one in a directory that exists. -/
def writeFile (p : Path) (content : Bytes) : FileOperation Unit := do
  let here ← target p
  match (← get).get? here with
  | some .directory => throw .isDirectory
  | _ => modify fun t => t.put here (.file content)

/-- **Removing a directory** with all beneath it.  The working directory, and a path that ends in
two dots, lose their contents but cannot be removed by that name.  A link is not removed. -/
def removeTree (p : Path) : FileOperation Unit := do
  let here ← target p
  let t ← get
  match t.get? here with
  | none => throw .notFound
  | some .directory =>
    let emptied := fun (t : FileTree) => t.restrict fun there => !Path.isBeneath there here
    if p.parts.isEmpty then do
      modify emptied
      throw .invalid
    else if p.name == Path.up then do
      modify emptied
      throw .notFound
    else if t.links.contains here then throw .linked
    else modify fun t => t.prune here
  | some _ => throw .notDirectory

/-- The first of the names that is free in a directory, if one is. -/
def freeName (t : FileTree) (directory : Location) (names : List Text) : Option Text :=
  names.find? fun name => (t.get? (directory ++ [name])).isNone

/-- More names than there are nodes in a tree, so that one of them is free everywhere. -/
def candidateNames (t : FileTree) (name : Text) : List Text :=
  (List.range (t.nodes.length + 1)).map fun k =>
    '.' :: name ++ '.' :: Text.ofNat k ++ ".tmp".toList

/-- Moving a file over what a path leads to, unless that is a directory. -/
def rename (source : Location) (p : Path) : FileOperation Unit := do
  let here ← target p
  match (← get).get? here, (← get).get? source with
  | some .directory, _ => throw .isDirectory
  | _, some node => modify fun t => (t.erase source).put here node
  | _, none => throw .notFound

/-- **Replacing a file as a whole.**  The content is written to a new file beside the old one, which
is then moved over it, so that the path leads to the old content or to the new.  When the move
fails the new file is removed. -/
def replaceFile (p : Path) (content : Bytes) : FileOperation Unit := do
  let t ← get
  let directory := Path.normalize t.workingDirectory p.parent
  match freeName t directory (candidateNames t p.name) with
  | none => throw .alreadyExists
  | some name =>
    writeFile ⟨1, directory ++ [name]⟩ content
    tryCatch (rename (directory ++ [name]) p) fun fault => do
      modify fun t => t.erase (directory ++ [name])
      throw fault

/-! ### Listing -/

/-- What stands beneath the working directory, by its path from there, ordered by that path. -/
def listing (t : FileTree) : List (Text × Node) :=
  let beneath := t.nodes.filterMap fun (there, node) =>
    if Path.isBeneath there t.workingDirectory then
      some (joinWith ['/'] (there.drop t.workingDirectory.length), node)
    else none
  beneath.mergeSort fun a b => Text.le a.1 b.1

/-! ### Differences -/

/-- One step from a tree to another. -/
inductive Change where
  /-- What stands at a location, which has nothing beneath it, is removed. -/
  | remove (here : Location) (node : Node)
  /-- A directory is made. -/
  | makeDirectory (here : Location)
  /-- A file is written. -/
  | write (here : Location) (content : Bytes)

/-- What is to be removed on the way to another tree, innermost first: all that is missing there or
is a directory in only one of the two. -/
def removals (t other : FileTree) : List Change :=
  let gone := t.nodes.filter fun (here, node) =>
    match other.get? here with
    | some there => there.isDirectory != node.isDirectory
    | none => true
  (gone.mergeSort fun a b => b.1.length ≤ a.1.length).map fun (here, node) => .remove here node

/-- What is to be made on the way to another tree, outermost first. -/
def additions (t other : FileTree) : List Change :=
  let fresh := other.nodes.filter fun (here, node) => t.get? here != some node
  (fresh.mergeSort fun a b => a.1.length ≤ b.1.length).filterMap fun (here, node) =>
    match node with
    | .directory => some (.makeDirectory here)
    | .file content => some (.write here content)
    | .archive _ => none

/-- **The steps from a tree to another.** -/
def changes (t other : FileTree) : List Change := t.removals other ++ t.additions other

end FileTree

end Unjar
