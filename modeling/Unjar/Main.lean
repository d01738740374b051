import Unjar.CommandLine
import Unjar.StoredArchive

/-!
The program.

The files that a command looks at are read into a tree, the command is performed on it, and the steps
from the old tree to the new one are carried out.  No process is started: a decompiler counts as not
installed.
-/

set_option autoImplicit false

namespace Unjar.Program

def pathText (here : Location) : String := String.ofList ('/' :: joinWith ['/'] here)

/-- Whether a directory stands at a location. -/
def isDirectory (here : Location) : IO Bool := do ((← IO.currentDir) / pathText here).isDir

/-- Whether anything stands at a location. -/
def isPresent (here : Location) : IO Bool := do ((← IO.currentDir) / pathText here).pathExists

/-- The file at a location; one that is an archive is read as one. -/
def readNode (here : Location) : IO Node := do
  let bytes := (← IO.FS.readBinFile (pathText here)).toList
  match StoredArchive.entries? bytes with
  | some entries => pure (.archive entries)
  | none => pure (.file bytes)

/-- A tree with a directory, unless that is the root. -/
def putDirectory (tree : FileTree) (here : Location) : FileTree :=
  if here.isEmpty then tree else tree.put here .directory

/-- Whether a link stands at a location. -/
def isLink (here : Location) : IO Bool := do
  let metadata ← ((← IO.currentDir) / pathText here).symlinkMetadata
  pure (metadata.type matches .symlink)

/-- A tree with a directory, which may be a link. -/
def loadDirectory (tree : FileTree) (here : Location) : IO FileTree := do
  let tree := putDirectory tree here
  if ← isLink here then pure { tree with links := here :: tree.links } else pure tree

/-- A tree with what stands at a location. -/
def load (tree : FileTree) (here : Location) : IO FileTree := do
  if ← isDirectory here then loadDirectory tree here
  else if ← isPresent here then pure (tree.put here (← readNode here))
  else pure tree

/-- A tree with what stands at a location and beneath it, but not behind a link. -/
partial def loadAll (tree : FileTree) (here : Location) : IO FileTree := do
  let mut tree ← load tree here
  if (← isDirectory here) && !(← isLink here) then
    for entry in ← ((← IO.currentDir) / pathText here).readDir do
      tree ← loadAll tree (here ++ [entry.fileName.toList])
  pure tree

/-- A tree with the directories on the way to a location. -/
def loadAbove (tree : FileTree) (here : Location) : IO FileTree := do
  let mut tree := tree
  for depth in List.range here.length do
    tree ← load tree (here.take depth)
  pure tree

/-- The tree of the files that a command looks at. -/
def loadFor (environment : Settings.Environment) (words : List Text) : IO FileTree := do
  let working := (Path.ofString (← IO.currentDir).toString).parts
  let mut tree ← load (← loadAbove ⟨[], working, []⟩ working) working
  for path in CommandLine.projectPaths words do
    let here := Path.normalize working path
    tree ← loadAll (← loadAbove tree here) here
  for path in CommandLine.inputPaths environment words do
    let here := Path.normalize working path
    tree ← load (← loadAbove tree here) here
  pure tree

/-- One step towards the new tree. -/
def apply : FileTree.Change → IO Unit
  | .remove here .directory => do
    if ← isLink here then IO.FS.removeFile (pathText here)
    else IO.FS.removeDirAll (pathText here)
  | .remove here _ => IO.FS.removeFile (pathText here)
  | .makeDirectory here => IO.FS.createDirAll (pathText here)
  | .write here content => IO.FS.writeBinFile (pathText here) ⟨content.toArray⟩

/-- What the names of all environment variables begin with. -/
def variableStart : String := "UNJAR_"

/-- The environment variables, without what their names begin with. -/
def environment : IO Settings.Environment := do
  let names := "LOG_LEVEL".toList :: Settings.Field.all.map Settings.Field.variableName
  let entries ← names.filterMapM fun name => do
    let value ← IO.getEnv (variableStart ++ String.ofList name)
    pure (value.map fun v => (name, v.toList))
  pure entries

/-- A decompiler that cannot be started. -/
def noProcess (_ : Text) : ProcessRun := ⟨[], .notFound⟩

/-- The program: its exit code. -/
def run (words : List Text) : IO UInt32 := do
  let environment ← environment
  let tree ← loadFor environment words
  let outcome := CommandLine.invoke ⟨environment, tree, noProcess, Cfr.readUtf8⟩ words
  (tree.changes outcome.tree).forM apply
  IO.print (String.ofList outcome.output)
  IO.eprint (String.ofList outcome.errors)
  match outcome.finish with
  | .brokeOff cause => IO.eprintln (String.ofList cause.message)
  | _ => pure ()
  pure outcome.finish.exitCode.toUInt32

end Unjar.Program

/-- Performs the command that the arguments spell. -/
def main (arguments : List String) : IO UInt32 :=
  Unjar.Program.run (arguments.map String.toList)
